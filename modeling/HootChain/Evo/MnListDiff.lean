import HootChain.Evo.MnList
import Mathlib.Data.List.Sort

/-!
# Diffs of Masternode Lists (`evo/deterministicmns.cpp`)

Between snapshots the node stores what a block changes: the masternodes it adds, the
state diffs of those it updates and the internal ids of those it removes. Applying a
diff removes, then adds, then updates, and every step can throw on a property that
another masternode still has.

A diff can be applied when the new list takes no property away from a masternode that
stays, and every masternode that stays keeps all but its state. What comes out has the entries
of the new list, but an operator key that is in the old list in the other scheme stays in it.
-/

namespace HootChain.Evo

open Primitives Foundation List CDeterministicMN CDeterministicMNStateDiff

/-! ## `BuildDiff` and `ApplyDiff` -/

/-- `CDeterministicMNListDiff`. The updates are an `unordered_map` in the source. -/
structure CDeterministicMNListDiff where
  nHeight : Int
  addedMNs : List CDeterministicMN
  updatedMNs : List (Nat × CDeterministicMNStateDiff)
  removedMns : List Nat

def CDeterministicMNListDiff.hasChanges (d : CDeterministicMNListDiff) : Bool :=
  !d.addedMNs.isEmpty || !d.updatedMNs.isEmpty || !d.removedMns.isEmpty

namespace CDeterministicMNList

/-- The entry of `updatedMNs` for a masternode of the new list. -/
def updateOf (old : CDeterministicMNList) (toPtr : CDeterministicMN) :
    Option (Nat × CDeterministicMNStateDiff) :=
  (old.getMN toPtr.proTxHash).bind fun fromPtr =>
    let stateDiff := diff fromPtr.pdmnState toPtr.pdmnState
    if stateDiff.hasFields then some (toPtr.internalId, stateDiff) else none

def buildDiff (old new : CDeterministicMNList) : CDeterministicMNListDiff where
  nHeight := -1
  addedMNs :=
    (new.mns.filter fun toPtr => !old.hasMN toPtr.proTxHash).insertionSort fun a b =>
      a.internalId ≤ b.internalId
  updatedMNs := new.mns.filterMap old.updateOf
  removedMns :=
    ((old.mns.filter fun fromPtr => !new.hasMN fromPtr.proTxHash).map
      CDeterministicMN.internalId).insertionSort (· ≤ ·)

/-- One removal of `ApplyDiff`. -/
def applyRemoved (result : CDeterministicMNList) (id : Nat) : ListResult :=
  match result.getMNByInternalId id with
  | none => .error (.runtimeError "ApplyDiff: can't find a removed masternode")
  | some dmn => result.removeMN dmn.proTxHash

/-- One update of `ApplyDiff`; an id that is not in the list dereferences a null pointer. -/
def applyUpdated (result : CDeterministicMNList) (p : Nat × CDeterministicMNStateDiff) :
    ListResult :=
  match result.getMNByInternalId p.1 with
  | none => .error (.runtimeError "null pointer")
  | some dmn => result.updateMNByDiff dmn p.2

/-- `ApplyDiff` for the block with the given hash and height. -/
def applyDiff (l : CDeterministicMNList) (blockHash : Uint256) (nHeight : Int)
    (diff : CDeterministicMNListDiff) : ListResult := do
  let result := { l with blockHash := blockHash, nHeight := nHeight }
  let result ← diff.removedMns.foldlM applyRemoved result
  let result ← diff.addedMNs.foldlM (fun result dmn => result.addMN dmn true) result
  diff.updatedMNs.foldlM applyUpdated result

lemma stamp_applyDiff {l l' : CDeterministicMNList} {blockHash : Uint256} {nHeight : Int}
    {diff : CDeterministicMNListDiff} (hrun : l.applyDiff blockHash nHeight diff = .ok l') :
    l'.stamp = (blockHash, nHeight) := by
  simp only [applyDiff, bind_eq_ok] at hrun
  obtain ⟨l₁, hremoved, l₂, hadded, hupdated⟩ := hrun
  have h₁ := foldlM_preserves (fun l => stamp l = (blockHash, nHeight))
    (fun cur id next _ hcur hstep => by
      unfold applyRemoved at hstep
      split at hstep
      · cases hstep
      · exact (stamp_removeMN hstep).trans hcur) rfl hremoved
  have h₂ := foldlM_preserves (fun l => stamp l = (blockHash, nHeight))
    (fun cur dmn next _ hcur hstep => (stamp_addMN hstep).trans hcur) h₁ hadded
  refine foldlM_preserves (fun l => stamp l = (blockHash, nHeight))
    (fun cur p next _ hcur hstep => ?_) h₂ hupdated
  unfold applyUpdated at hstep
  split at hstep
  · cases hstep
  · exact (stamp_updateMN hstep).trans hcur

/-! ## What a diff contains -/

section Contents

variable {old new : CDeterministicMNList}

lemma nodup_mns (hl : old.Keyed) : (old.mns.map proTxHash).Nodup := by
  have hkeys : old.mns.map proTxHash = old.mnMap.toList.map Prod.fst := by
    rw [mns, map_map]
    apply map_congr_left
    intro entry hentry
    exact hl (Std.ExtTreeMap.mem_toList_iff_getElem?_eq_some.mp hentry)
  rw [hkeys, List.Nodup, pairwise_map]
  refine Std.ExtTreeMap.distinct_keys_toList.imp ?_
  intro a b hne heq
  exact hne (Nat.compare_eq_eq.mpr heq)

variable {h : Uint256} {dmn : CDeterministicMN} {p : Nat × CDeterministicMNStateDiff}

lemma hasMN_eq_false : (!old.hasMN h) = true ↔ old.getMN h = none := by
  simp [hasMN]

lemma mem_addedMNs (hnew : new.WellIndexed) :
    dmn ∈ (old.buildDiff new).addedMNs ↔
      new.getMN dmn.proTxHash = some dmn ∧ old.getMN dmn.proTxHash = none := by
  rw [buildDiff, mem_insertionSort, mem_filter, hnew.mem_mns_iff, hasMN_eq_false]

lemma mem_removedMns (hold : old.WellIndexed) {id : Nat} :
    id ∈ (old.buildDiff new).removedMns ↔
      ∃ h dmn, old.getMN h = some dmn ∧ dmn.internalId = id ∧ new.getMN h = none := by
  rw [buildDiff, mem_insertionSort, mem_map]
  constructor
  · rintro ⟨dmn, hmem, hid⟩
    rw [mem_filter, hold.mem_mns_iff, hasMN_eq_false] at hmem
    exact ⟨dmn.proTxHash, dmn, hmem.1, hid, hmem.2⟩
  · rintro ⟨h, dmn, hget, hid, hnone⟩
    have hh := hold.proTxHash_eq hget
    refine ⟨dmn, ?_, hid⟩
    rw [mem_filter, hold.mem_mns_iff, hasMN_eq_false, hh]
    exact ⟨hget, hnone⟩

lemma updateOf_eq_some {toPtr : CDeterministicMN} :
    old.updateOf toPtr = some p ↔
      ∃ fromPtr, old.getMN toPtr.proTxHash = some fromPtr ∧
        restored fromPtr.pdmnState toPtr.pdmnState ≠ fromPtr.pdmnState ∧
        p = (toPtr.internalId, .diff fromPtr.pdmnState toPtr.pdmnState) := by
  unfold updateOf
  rw [Option.bind_eq_some_iff]
  refine exists_congr fun fromPtr => and_congr_right fun _ => ?_
  rw [ne_eq, ← hasFields_diff]
  simp [@eq_comm _ p]

variable (hnew : new.WellIndexed)

include hnew

lemma mem_updatedMNs :
    p ∈ (old.buildDiff new).updatedMNs ↔
      ∃ fromPtr toPtr, new.getMN toPtr.proTxHash = some toPtr ∧
        old.getMN toPtr.proTxHash = some fromPtr ∧
        restored fromPtr.pdmnState toPtr.pdmnState ≠ fromPtr.pdmnState ∧
        p = (toPtr.internalId, .diff fromPtr.pdmnState toPtr.pdmnState) := by
  rw [buildDiff, mem_filterMap]
  simp only [hnew.mem_mns_iff, updateOf_eq_some]
  constructor
  · rintro ⟨toPtr, hto, fromPtr, hfrom, hrest⟩
    exact ⟨fromPtr, toPtr, hto, hfrom, hrest⟩
  · rintro ⟨fromPtr, toPtr, hto, hfrom, hrest⟩
    exact ⟨toPtr, hto, fromPtr, hfrom, hrest⟩

/-- The masternode that an id of the list belongs to. -/
def hashOfId (l : CDeterministicMNList) (id : Nat) : Uint256 := (l.mnInternalIdMap[id]?).getD 0

omit hnew in
lemma hashOfId_eq {l : CDeterministicMNList} (hl : l.WellIndexed) (hget : l.getMN h = some dmn) :
    l.hashOfId dmn.internalId = h := by
  rw [hashOfId, (hl.internalIds _ _).mpr ⟨dmn, hget, rfl⟩]
  rfl

lemma nodup_addedMNs : ((old.buildDiff new).addedMNs.map proTxHash).Nodup := by
  have hperm := perm_insertionSort (fun a b : CDeterministicMN => a.internalId ≤ b.internalId)
    (new.mns.filter fun toPtr => !old.hasMN toPtr.proTxHash)
  refine (hperm.map _).nodup_iff.mpr ?_
  exact (nodup_mns hnew.proTxHash_eq).sublist (filter_sublist.map _)

omit hnew in
lemma nodup_removedMns (hold : old.WellIndexed) :
    ((old.buildDiff new).removedMns.map old.hashOfId).Nodup := by
  have hperm := perm_insertionSort (· ≤ ·)
    ((old.mns.filter fun fromPtr => !new.hasMN fromPtr.proTxHash).map internalId)
  refine (hperm.map _).nodup_iff.mpr ?_
  have hhash : ∀ dmn ∈ old.mns.filter fun fromPtr => !new.hasMN fromPtr.proTxHash,
      (old.hashOfId ∘ internalId) dmn = dmn.proTxHash := by
    intro dmn hmem
    exact hashOfId_eq hold (hold.mem_mns_iff.mp (mem_filter.mp hmem).1)
  rw [map_map, map_congr_left hhash]
  exact (nodup_mns hold.proTxHash_eq).sublist (filter_sublist.map _)

lemma nodup_updatedMNs :
    ((old.buildDiff new).updatedMNs.map fun p => new.hashOfId p.1).Nodup := by
  have hhash : ∀ toPtr ∈ new.mns, ∀ p, old.updateOf toPtr = some p →
      new.hashOfId p.1 = toPtr.proTxHash := by
    intro toPtr hmem p hp
    obtain ⟨fromPtr, -, -, rfl⟩ := updateOf_eq_some.mp hp
    exact hashOfId_eq hnew (hnew.mem_mns_iff.mp hmem)
  rw [List.Nodup, pairwise_map, buildDiff, pairwise_filterMap]
  refine (pairwise_map.mp (nodup_mns hnew.proTxHash_eq)).imp_of_mem fun ha hb hne p hp q hq => ?_
  rwa [hhash _ ha p hp, hhash _ hb q hq]

omit hnew in
lemma mem_removedHashes (hold : old.WellIndexed) :
    h ∈ (old.buildDiff new).removedMns.map old.hashOfId ↔
      old.getMN h ≠ none ∧ new.getMN h = none := by
  simp only [mem_map, mem_removedMns hold]
  constructor
  · rintro ⟨id, ⟨k, dmn, hget, rfl, hnone⟩, rfl⟩
    rw [hashOfId_eq hold hget, hget]
    exact ⟨Option.some_ne_none dmn, hnone⟩
  · rintro ⟨hsome, hnone⟩
    obtain ⟨dmn, hget⟩ := Option.ne_none_iff_exists'.mp hsome
    exact ⟨dmn.internalId, ⟨h, dmn, hget, rfl, hnone⟩, hashOfId_eq hold hget⟩

lemma mem_addedHashes :
    h ∈ (old.buildDiff new).addedMNs.map proTxHash ↔ new.getMN h ≠ none ∧ old.getMN h = none := by
  simp only [mem_map, mem_addedMNs hnew]
  constructor
  · rintro ⟨dmn, ⟨hget, hnone⟩, rfl⟩
    rw [hget]
    exact ⟨Option.some_ne_none dmn, hnone⟩
  · rintro ⟨hsome, hnone⟩
    obtain ⟨dmn, hget⟩ := Option.ne_none_iff_exists'.mp hsome
    have hh := hnew.proTxHash_eq hget
    exact ⟨dmn, ⟨hh.symm ▸ hget, hh.symm ▸ hnone⟩, hh⟩

lemma mem_updatedHashes :
    h ∈ (old.buildDiff new).updatedMNs.map (fun p => new.hashOfId p.1) ↔
      ∃ dmn dmn', old.getMN h = some dmn ∧ new.getMN h = some dmn' ∧
        restored dmn.pdmnState dmn'.pdmnState ≠ dmn.pdmnState := by
  simp only [mem_map, mem_updatedMNs hnew]
  constructor
  · rintro ⟨p, ⟨dmn, dmn', hto, hfrom, hne, rfl⟩, rfl⟩
    rw [hashOfId_eq hnew hto]
    exact ⟨dmn, dmn', hfrom, hto, hne⟩
  · rintro ⟨dmn, dmn', hfrom, hto, hne⟩
    have hh := hnew.proTxHash_eq hto
    exact ⟨_, ⟨dmn, dmn', hh.symm ▸ hto, hh.symm ▸ hfrom, hne, rfl⟩, hashOfId_eq hnew hto⟩

end Contents

/-! ## Applying the diff of two lists -/

/-- What a block may do to a list for its diff to be applicable: masternodes that stay
change nothing but their state, and lose no property to another one. -/
structure Follows (old new : CDeterministicMNList) : Prop where
  same : ∀ {h dmn dmn'}, old.getMN h = some dmn → new.getMN h = some dmn' →
    dmn' = dmn.withState dmn'.pdmnState
  kept : ∀ {h h' p}, new.Holds h p → old.Holds h' p → h' = h ∨ new.getMN h' = none

/-- A masternode of the new list as the diff from the old one gives it. -/
def restoredMN (old : CDeterministicMNList) (dmn : CDeterministicMN) : CDeterministicMN :=
  match old.getMN dmn.proTxHash with
  | none => dmn
  | some fromPtr => dmn.withState (restored fromPtr.pdmnState dmn.pdmnState)

/-- The entries of the new list as the diff gives them. -/
def replayed (old new : CDeterministicMNList) (h : Uint256) : Option CDeterministicMN :=
  (new.getMN h).map old.restoredMN

/-- A list on the way: its entries are those that the diff is to give, or still those of the
old list while the new one has the masternode too. -/
def Between (old new l : CDeterministicMNList) : Prop :=
  ∀ h, l.getMN h = replayed old new h ∨ (l.getMN h = old.getMN h ∧ new.getMN h ≠ none)

/-- The new list has the masternode, and the property is in one of its two entries. -/
def Claims (old new : CDeterministicMNList) (h : Uint256) (p : UniqueProperty) : Prop :=
  new.Holds h p ∨ (old.Holds h p ∧ new.getMN h ≠ none)

section Apply

variable {old new l l' : CDeterministicMNList} {h h' : Uint256} {dmn : CDeterministicMN}
  {updates : List (Nat × CDeterministicMNStateDiff)}

@[simp] lemma restoredMN_proTxHash : (old.restoredMN dmn).proTxHash = dmn.proTxHash := by
  unfold restoredMN
  split <;> rfl

@[simp] lemma restoredMN_internalId : (old.restoredMN dmn).internalId = dmn.internalId := by
  unfold restoredMN
  split <;> rfl

lemma restoredMN_of_none (hnone : old.getMN dmn.proTxHash = none) : old.restoredMN dmn = dmn := by
  rw [restoredMN, hnone]

lemma restoredMN_of_some {fromPtr : CDeterministicMN}
    (hfrom : old.getMN dmn.proTxHash = some fromPtr) :
    old.restoredMN dmn = dmn.withState (restored fromPtr.pdmnState dmn.pdmnState) := by
  rw [restoredMN, hfrom]

lemma KeysValid.restoredMN (hkeys : dmn.KeysValid) : (old.restoredMN dmn).KeysValid := by
  unfold CDeterministicMNList.restoredMN
  split <;> exact ⟨hkeys.collateral, hkeys.owner⟩

/-- The diff brings in no property that is in neither list. -/
lemma mem_properties_restoredMN {p : UniqueProperty} (hp : p ∈ (old.restoredMN dmn).properties) :
    p ∈ dmn.properties ∨ old.Holds dmn.proTxHash p := by
  unfold restoredMN at hp
  split at hp
  · exact .inl hp
  · next fromPtr hfrom =>
    cases p with
    | collateral | addr | owner => exact .inl (by simpa [restored] using hp)
    | operator pubKey =>
      rw [operator_mem_properties, withState_pdmnState, restored] at hp
      split at hp
      · exact .inr (holds_of_mem hfrom (operator_mem_properties.mpr hp))
      · exact .inl (operator_mem_properties.mpr hp)

variable (hold : old.WellIndexed) (hnew : new.WellIndexed) (hfollows : Follows old new)

include hold hnew hfollows

/-- No property is claimed by two masternodes. -/
lemma Follows.claims_unique {p : UniqueProperty} (hp : Claims old new h p)
    (hp' : Claims old new h' p) : h' = h := by
  rcases hp with hp | ⟨hp, hstays⟩ <;> rcases hp' with hp' | ⟨hp', hstays'⟩
  · exact hnew.properties.owner_unique hp' hp
  · exact (hfollows.kept hp hp').resolve_right hstays'
  · exact ((hfollows.kept hp' hp).resolve_right hstays).symm
  · exact hold.properties.owner_unique hp' hp

omit hold hfollows in
lemma claims_of_replayed (hget : replayed old new h = some dmn) {p : UniqueProperty}
    (hp : p ∈ dmn.properties) : Claims old new h p := by
  obtain ⟨mn, hmn, rfl⟩ := Option.map_eq_some_iff.mp hget
  rcases mem_properties_restoredMN hp with hp | hp
  · exact .inl (holds_of_mem hmn hp)
  · rw [hnew.proTxHash_eq hmn] at hp
    exact .inr ⟨hp, by simp [hmn]⟩

/-- On the way, a property that the diff is to give is held by its new owner or by no one. -/
lemma Between.holder_eq (hl : Between old new l) (hget : replayed old new h = some dmn)
    {p : UniqueProperty} (hp : p ∈ dmn.properties) (hheld : l.Holds h' p) : h' = h := by
  refine hfollows.claims_unique hold hnew (claims_of_replayed hnew hget hp) ?_
  obtain ⟨mn, hmn, hmem⟩ := hheld
  rcases hl h' with heq | ⟨heq, hstays⟩
  · exact claims_of_replayed hnew (heq ▸ hmn) hmem
  · exact .inr ⟨holds_of_mem (heq ▸ hmn) hmem, hstays⟩

omit hold in
/-- On the way, ids are those of the new list. -/
lemma Between.internalId_inj
    (hl : Between old new l) {mn : CDeterministicMN} (hget : new.getMN h = some dmn)
    (hmn : l.getMN h' = some mn) (hid : mn.internalId = dmn.internalId) : h' = h := by
  rcases hl h' with heq | ⟨heq, hstays⟩
  · obtain ⟨mn', hmn', rfl⟩ := Option.map_eq_some_iff.mp (heq ▸ hmn)
    exact hnew.internalId_inj hmn' hget (by simpa using hid)
  · obtain ⟨mn', hmn'⟩ := Option.ne_none_iff_exists'.mp hstays
    have hsame := hfollows.same (heq ▸ hmn) hmn'
    apply hnew.internalId_inj hmn' hget
    rw [hsame]
    exact hid

omit hold hnew hfollows in
lemma Between.set (hl : Between old new l)
    (hget : ∀ k, l'.getMN k = if k = h then replayed old new k else l.getMN k) :
    Between old new l' := by
  intro k
  rw [hget]
  split
  · exact .inl rfl
  · exact hl k

omit hnew hfollows in
lemma exists_applyRemoved (hl : l.WellIndexed) {id : Nat}
    (hid : id ∈ (old.buildDiff new).removedMns)
    (hstart : l.getMN (old.hashOfId id) = old.getMN (old.hashOfId id)) :
    ∃ l', l.applyRemoved id = .ok l' ∧ l'.WellIndexed ∧
      ∀ k, l'.getMN k = if k = old.hashOfId id then new.getMN k else l.getMN k := by
  obtain ⟨h, dmn, hget, rfl, hnone⟩ := (mem_removedMns hold).mp hid
  rw [hashOfId_eq hold hget] at hstart ⊢
  have hgetl := hstart.trans hget
  obtain ⟨l', hrun, hl'⟩ := exists_removeMN hl hgetl
  refine ⟨l', ?_, hl', fun k => ?_⟩
  · rw [applyRemoved, hl.getMNByInternalId hgetl]
    simp only [hl.proTxHash_eq hgetl]
    exact hrun
  · rw [getMN_removeMN hgetl hrun]
    exact ite_congr rfl (fun hk => by rw [hk, hnone]) fun _ => rfl

omit hnew hfollows in
variable (new) in
/-- The removals leave the masternodes of the old list that the new one has too. -/
lemma exists_removals (blockHash : Uint256) (nHeight : Int) :
    ∃ l₁, (old.buildDiff new).removedMns.foldlM applyRemoved
        { old with blockHash := blockHash, nHeight := nHeight } = .ok l₁ ∧ l₁.WellIndexed ∧
      ∀ h, l₁.getMN h = if new.getMN h = none then none else old.getMN h := by
  obtain ⟨l₁, hrun, hl₁, hget⟩ := foldlM_resolves WellIndexed old.hashOfId getMN old.getMN
    new.getMN (l := (old.buildDiff new).removedMns)
    (fun l id hid hl hstart => exists_applyRemoved hold hl hid hstart) (nodup_removedMns hold)
    (s := { old with blockHash := blockHash, nHeight := nHeight })
    (hold.stamped ..) (fun _ _ => rfl)
  refine ⟨l₁, hrun, hl₁, fun h => ?_⟩
  have hrest : getMN { old with blockHash := blockHash, nHeight := nHeight } h = old.getMN h := rfl
  rw [hget, hrest]
  simp only [mem_removedHashes hold]
  by_cases hnone : new.getMN h = none
  · by_cases hsome : old.getMN h = none <;> simp [hnone, hsome]
  · simp [hnone]

variable (hl : l.WellIndexed)

include hl

lemma exists_applyAdded (hbetween : Between old new l)
    (hget : new.getMN dmn.proTxHash = some dmn) (hfresh : old.getMN dmn.proTxHash = none)
    (hnone : l.getMN dmn.proTxHash = none) :
    ∃ l', l.addMN dmn true = .ok l' ∧ l'.WellIndexed ∧
      ∀ k, l'.getMN k = if k = dmn.proTxHash then replayed old new k else l.getMN k := by
  have hreplayed : replayed old new dmn.proTxHash = some dmn := by
    rw [replayed, hget, Option.map_some, restoredMN_of_none hfresh]
  have hid : ∀ h mn, l.getMN h = some mn → mn.internalId ≠ dmn.internalId := by
    intro h mn hmn heq
    have hh := hbetween.internalId_inj hnew hfollows hget hmn heq
    rw [hh, hnone] at hmn
    cases hmn
  have hfree : ∀ p ∈ dmn.properties, ∀ h, ¬ l.Holds h p := by
    intro p hp h hheld
    have hh := hbetween.holder_eq hold hnew hfollows hreplayed hp hheld
    obtain ⟨mn, hmn, -⟩ := hheld
    rw [hh, hnone] at hmn
    cases hmn
  obtain ⟨l', hrun⟩ := exists_addMN hl (hnew.keys hget) hnone hid hfree
  refine ⟨l', hrun, hl.addMN hrun, fun k => ?_⟩
  rw [getMN_addMN hrun]
  exact ite_congr rfl (fun hk => by rw [hk, hreplayed]) fun _ => rfl

lemma exists_applyUpdated (hbetween : Between old new l) {p : Nat × CDeterministicMNStateDiff}
    (hp : p ∈ (old.buildDiff new).updatedMNs)
    (hstart : l.getMN (new.hashOfId p.1) = old.getMN (new.hashOfId p.1)) :
    ∃ l', l.applyUpdated p = .ok l' ∧ l'.WellIndexed ∧
      ∀ k, l'.getMN k = if k = new.hashOfId p.1 then replayed old new k else l.getMN k := by
  obtain ⟨fromPtr, toPtr, hto, hfrom, -, rfl⟩ := (mem_updatedMNs hnew).mp hp
  rw [hashOfId_eq hnew hto] at hstart ⊢
  have hgetl := hstart.trans hfrom
  have hsame := hfollows.same hfrom hto
  have hhash := hl.proTxHash_eq hgetl
  -- the masternode with the state that the diff makes of the old one
  have hmn : fromPtr.withState (restored fromPtr.pdmnState toPtr.pdmnState) =
      old.restoredMN toPtr := by
    rw [restoredMN_of_some hfrom, hsame]
    rfl
  have hreplayed : replayed old new toPtr.proTxHash = some (old.restoredMN toPtr) := by
    rw [replayed, hto, Option.map_some]
  have hfree : ∀ p ∈ (old.restoredMN toPtr).properties,
      p ∈ fromPtr.properties ∨ ∀ h, ¬ l.Holds h p := by
    intro p hmem
    by_cases hheld : ∃ h, l.Holds h p
    · obtain ⟨h, hheld⟩ := hheld
      have hh := hbetween.holder_eq hold hnew hfollows hreplayed hmem hheld
      rw [hh, holds_iff_of_getMN hgetl] at hheld
      exact .inl hheld
    · exact .inr fun h hh => hheld ⟨h, hh⟩
  have hscheme := keepsScheme_restored fromPtr.pdmnState toPtr.pdmnState
  have hkeys : (old.restoredMN toPtr).KeysValid := KeysValid.restoredMN (hnew.keys hto)
  obtain ⟨l', hrun⟩ := exists_updateMN (hhash.symm ▸ hgetl) hscheme hl (hmn ▸ hfree)
  refine ⟨l', ?_, hl.updateMN (hhash.symm ▸ hgetl) hscheme (hmn ▸ hkeys) hrun, fun k => ?_⟩
  · have hid : l.getMNByInternalId toPtr.internalId = some fromPtr := by
      rw [hsame]
      exact hl.getMNByInternalId hgetl
    simp only [applyUpdated, hid, updateMNByDiff, applyToState_diff]
    exact hrun
  · rw [getMN_updateMN hrun, hhash, hmn]
    exact ite_congr rfl (fun hk => by rw [hk, hreplayed]) fun _ => rfl

/-- The additions give the new masternodes their entries. -/
lemma exists_additions
    (hget : ∀ h, l.getMN h = if new.getMN h = none then none else old.getMN h) :
    ∃ l₂, (old.buildDiff new).addedMNs.foldlM (fun result dmn => result.addMN dmn true) l =
        .ok l₂ ∧ l₂.WellIndexed ∧ Between old new l₂ ∧
      ∀ h, l₂.getMN h = if old.getMN h = none ∨ new.getMN h = none then replayed old new h
        else old.getMN h := by
  have hbetween : Between old new l := by
    intro h
    rw [hget]
    by_cases hnone : new.getMN h = none
    · exact .inl (by rw [if_pos hnone, replayed, hnone, Option.map_none])
    · exact .inr ⟨if_neg hnone, hnone⟩
  obtain ⟨l₂, hrun, ⟨hl₂, hbetween₂⟩, hget₂⟩ :=
    foldlM_resolves (fun l => WellIndexed l ∧ Between old new l) proTxHash
    getMN (fun _ => none) (replayed old new) (l := (old.buildDiff new).addedMNs)
    (fun l dmn hmem hl hstart => by
      obtain ⟨hdmn, hfresh⟩ := (mem_addedMNs hnew).mp hmem
      obtain ⟨l', hrun, hl', hget'⟩ :=
        exists_applyAdded hold hnew hfollows hl.1 hl.2 hdmn hfresh hstart
      exact ⟨l', hrun, ⟨hl', hl.2.set hget'⟩, hget'⟩)
    (nodup_addedMNs hnew) ⟨hl, hbetween⟩
    (fun dmn hmem => by rw [hget, ((mem_addedMNs hnew).mp hmem).2, ite_self])
  refine ⟨l₂, hrun, hl₂, hbetween₂, fun h => ?_⟩
  simp only [hget₂, hget, mem_addedHashes hnew]
  by_cases hnone : new.getMN h = none <;> simp [hnone, replayed]

/-- The updates complete the list, in whichever order they are made. -/
lemma exists_updates (hbetween : Between old new l)
    (hget : ∀ h, l.getMN h = if old.getMN h = none ∨ new.getMN h =
      none then replayed old new h else old.getMN h)
    (hperm : updates.Perm (old.buildDiff new).updatedMNs) :
    ∃ l₃, updates.foldlM applyUpdated l = .ok l₃ ∧ l₃.WellIndexed ∧
      ∀ h, l₃.getMN h = replayed old new h := by
  have hhashes := hperm.map fun p => new.hashOfId p.1
  obtain ⟨l₃, hrun, ⟨hl₃, -⟩, hget₃⟩ :=
    foldlM_resolves (fun l => WellIndexed l ∧ Between old new l) (fun p => new.hashOfId p.1)
    getMN old.getMN (replayed old new) (l := updates)
    (fun l p hmem hl hstart => by
      obtain ⟨l', hrun, hl', hget'⟩ :=
        exists_applyUpdated hold hnew hfollows hl.1 hl.2 (hperm.mem_iff.mp hmem) hstart
      exact ⟨l', hrun, ⟨hl', hl.2.set hget'⟩, hget'⟩)
    (hhashes.nodup_iff.mpr (nodup_updatedMNs hnew)) ⟨hl, hbetween⟩
    (fun p hmem => by
      obtain ⟨dmn, dmn', hfrom, hto, -⟩ :=
        (mem_updatedHashes hnew).mp (mem_map_of_mem (hperm.mem_iff.mp hmem))
      rw [hget, hfrom, hto]
      simp)
  refine ⟨l₃, hrun, hl₃, fun h => ?_⟩
  rw [hget₃]
  split
  · rfl
  · next hnot =>
    rw [hhashes.mem_iff, mem_updatedHashes hnew] at hnot
    rw [hget]
    split
    · rfl
    · next hstays =>
      -- both lists have the masternode, and the diff would change nothing
      rw [not_or] at hstays
      obtain ⟨dmn, hfrom⟩ := Option.ne_none_iff_exists'.mp hstays.1
      obtain ⟨dmn', hto⟩ := Option.ne_none_iff_exists'.mp hstays.2
      have hstate : restored dmn.pdmnState dmn'.pdmnState = dmn.pdmnState := by
        by_contra hne
        exact hnot ⟨dmn, dmn', hfrom, hto, hne⟩
      rw [replayed, hfrom, hto, Option.map_some,
        restoredMN_of_some ((hnew.proTxHash_eq hto).symm ▸ hfrom), hstate, hfollows.same hfrom hto]
      rfl

omit hl in
/-- **Round trip.** The diff of two lists takes the one to the entries of the other, and the
order of the updates does not matter. -/
theorem applyDiff_reordered (blockHash : Uint256) (nHeight : Int)
    (hperm : updates.Perm (old.buildDiff new).updatedMNs) :
    ∃ l, old.applyDiff blockHash nHeight { old.buildDiff new with updatedMNs := updates } =
        .ok l ∧ l.WellIndexed ∧ ∀ h, l.getMN h = replayed old new h := by
  obtain ⟨l₁, hrun₁, hl₁, hget₁⟩ := exists_removals new hold blockHash nHeight
  obtain ⟨l₂, hrun₂, hl₂, hbetween, hget₂⟩ := exists_additions hold hnew hfollows hl₁ hget₁
  obtain ⟨l₃, hrun₃, hl₃, hget₃⟩ := exists_updates hold hnew hfollows hl₂ hbetween hget₂ hperm
  refine ⟨l₃, ?_, hl₃, hget₃⟩
  simp only [applyDiff, bind_eq_ok]
  exact ⟨l₁, hrun₁, l₂, hrun₂, hrun₃⟩

omit hl in
/-- The diff of two such lists takes the old one to the new one. -/
lemma applyDiff_buildDiff (blockHash : Uint256) (nHeight : Int) :
    ∃ l, old.applyDiff blockHash nHeight (old.buildDiff new) = .ok l ∧ l.WellIndexed ∧
      ∀ h, l.getMN h = replayed old new h :=
  applyDiff_reordered hold hnew hfollows blockHash nHeight (List.Perm.refl _)

end Apply

end CDeterministicMNList

end HootChain.Evo

import HootChain.Evo.NewList
import HootChain.Evo.SimplifiedList

/-!
# Bans at Scheduled Heights (`CDeterministicMNManager::ProcessBlock`)

At certain heights the node punishes masternodes that were registered before the
collateral went up, after it has built the list of the block. The punishment is large:
with less than a thousand masternodes a single one bans.
-/

namespace HootChain.Evo

open Primitives Foundation List CDeterministicMN CDeterministicMNState

/-! ## The ban step -/

/-- `std::sort` by `nRegisteredHeight`, which may put equal heights in any order. -/
structure RegistrationSort where
  sort : List CDeterministicMN → List CDeterministicMN
  perm : ∀ mns, (sort mns).Perm mns
  sorted : ∀ mns, (sort mns).Pairwise fun a b =>
    a.pdmnState.nRegisteredHeight ≤ b.pdmnState.nRegisteredHeight

def insertionSorter : RegistrationSort where
  sort mns := mns.insertionSort fun a b =>
    a.pdmnState.nRegisteredHeight ≤ b.pdmnState.nRegisteredHeight
  perm mns := perm_insertionSort _ mns
  sorted mns := by
    have : Std.Total fun a b : CDeterministicMN =>
        a.pdmnState.nRegisteredHeight ≤ b.pdmnState.nRegisteredHeight :=
      ⟨fun a b => le_total _ _⟩
    have : IsTrans CDeterministicMN fun a b =>
        a.pdmnState.nRegisteredHeight ≤ b.pdmnState.nRegisteredHeight :=
      ⟨fun a b c => le_trans⟩
    exact pairwise_insertionSort _ mns

def isBanHeight (nHeight : Int) : Bool :=
  (nHeight ≥ 289000 && nHeight < 290000 && nHeight.tmod 5 == 0) ||
    (nHeight ≥ 302000 && nHeight.tmod 50 == 0)

namespace CDeterministicMNList

variable (sorter : RegistrationSort) (nHeight : Int)

section

variable (l : CDeterministicMNList)

/-- The eligible masternodes. -/
def eligibleMNs : List CDeterministicMN :=
  l.mns.filter fun mn => !mn.isPoSeBanned && mn.pdmnState.nRegisteredHeight < 271000

/-- The masternodes the loop gets to: before block 290000 it stops after five. -/
def punishedMNs : List CDeterministicMN :=
  let mnSorted := sorter.sort l.eligibleMNs
  if nHeight < 290000 then mnSorted.take 5 else mnSorted

/-- The ban step of `ProcessBlock`. -/
def banOldNodes : ListResult :=
  if isBanHeight nHeight then
    (l.punishedMNs sorter nHeight).foldlM (fun newList mn => newList.poSePunish mn.proTxHash 1000) l
  else
    .ok l

/-- The step takes a masternode to the highest penalty. -/
def bansSome : Bool :=
  isBanHeight nHeight && (l.punishedMNs sorter nHeight).any fun mn =>
    mn.pdmnState.nPoSePenalty + 1000 ≥ l.calcMaxPoSePenalty

/-- A masternode after the ban step. -/
def afterBans (dmn : CDeterministicMN) : CDeterministicMN :=
  if isBanHeight nHeight = true ∧ dmn ∈ l.punishedMNs sorter nHeight then
    dmn.withState (punishedState l.calcMaxPoSePenalty l.nHeight 1000 dmn.pdmnState)
  else dmn

end

/-! ## What the step does -/

section Bans

variable {sorter nHeight} {l l' : CDeterministicMNList}

lemma sublist_punishedMNs :
    (l.punishedMNs sorter nHeight).Sublist (sorter.sort l.eligibleMNs) := by
  unfold punishedMNs
  split
  · exact take_sublist ..
  · exact List.Sublist.refl _

variable {mn dmn : CDeterministicMN}

section

variable (hmem : mn ∈ l.punishedMNs sorter nHeight)

include hmem

lemma mem_eligibleMNs_of_mem : mn ∈ l.eligibleMNs :=
  (sorter.perm _).mem_iff.mp (sublist_punishedMNs.mem hmem)

lemma getMN_of_mem_punishedMNs (hl : l.WellIndexed) : l.getMN mn.proTxHash = some mn :=
  hl.mem_mns_iff.mp (mem_filter.mp (mem_eligibleMNs_of_mem hmem)).1

lemma not_isPoSeBanned_of_mem : mn.isPoSeBanned = false := by
  have hcondition := (mem_filter.mp (mem_eligibleMNs_of_mem hmem)).2
  simp only [Bool.and_eq_true, Bool.not_eq_true'] at hcondition
  exact hcondition.1

end

lemma nodup_punishedMNs (hl : l.WellIndexed) :
    ((l.punishedMNs sorter nHeight).map proTxHash).Nodup := by
  refine List.Nodup.sublist (sublist_punishedMNs.map _) ?_
  refine ((sorter.perm _).map _).nodup_iff.mpr ?_
  exact (nodup_mns hl.proTxHash_eq).sublist (filter_sublist.map _)

lemma poSePunish_eq (hget : l.getMN dmn.proTxHash = some dmn) (penalty : Int) :
    l.poSePunish dmn.proTxHash penalty = .ok { l with
      mnMap := l.mnMap.insert dmn.proTxHash
        (dmn.withState (punishedState l.calcMaxPoSePenalty l.nHeight penalty dmn.pdmnState)) } := by
  simp only [poSePunish, updateMNByHash, hget]
  exact updateMN_sameKeys (sameKeys_punishedState ..)

lemma getAllMNsCount_insert {h : Uint256} (hget : l.getMN h = some dmn)
    (dmn' : CDeterministicMN) : (l.mnMap.insert h dmn').size = l.getAllMNsCount := by
  have hmem : l.mnMap.contains h = true := by
    rw [Std.ExtTreeMap.contains_eq_isSome_getElem?]
    exact Option.isSome_iff_exists.mpr ⟨dmn, hget⟩
  rw [Std.ExtTreeMap.size_insert, if_pos hmem]
  rfl

/-- What the loop keeps: keys, number of masternodes and block. -/
structure Punishing (l cur : CDeterministicMNList) : Prop where
  sameCores : SameCores l cur
  count : cur.getAllMNsCount = l.getAllMNsCount
  stamp : cur.stamp = l.stamp

/-- One round of the loop. -/
lemma exists_punish (hl : l.WellIndexed) {cur : CDeterministicMNList} (hcur : Punishing l cur)
    (hmn : l.getMN mn.proTxHash = some mn)
    (hstart : cur.getMN mn.proTxHash = l.getMN mn.proTxHash) :
    ∃ next, cur.poSePunish mn.proTxHash 1000 = .ok next ∧ Punishing l next ∧
      ∀ k, next.getMN k = if k = mn.proTxHash then (l.getMN k).map fun dmn =>
        dmn.withState (punishedState l.calcMaxPoSePenalty l.nHeight 1000 dmn.pdmnState)
        else cur.getMN k := by
  have hget := hstart.trans hmn
  have hrun := poSePunish_eq hget 1000
  have hmax : cur.calcMaxPoSePenalty = l.calcMaxPoSePenalty := by
    rw [calcMaxPoSePenalty, calcMaxPoSePenalty, hcur.count]
  have hsame := hcur.sameCores.trans (sameCores_poSePunish (hl.congr hcur.sameCores) hrun)
  refine ⟨_, hrun, ⟨hsame, ?_, hcur.stamp⟩, fun k => ?_⟩
  · exact (getAllMNsCount_insert hget _).trans hcur.count
  · refine (getElem?_insert_nat ..).trans ?_
    by_cases hk : k = mn.proTxHash
    · rw [if_pos hk, if_pos hk, hk, hmn, hmax, hcur.sameCores.height, Option.map_some]
    · rw [if_neg hk, if_neg hk]
      rfl

/-- **The ban step** goes through, and changes the masternodes it gets to. -/
theorem exists_banOldNodes (sorter : RegistrationSort) (nHeight : Int) (hl : l.WellIndexed) :
    ∃ l', l.banOldNodes sorter nHeight = .ok l' ∧ Punishing l l' ∧
      ∀ k, l'.getMN k = (l.getMN k).map (l.afterBans sorter nHeight) := by
  unfold banOldNodes afterBans
  by_cases hban : isBanHeight nHeight = true
  · rw [if_pos hban]
    obtain ⟨l', hrun, hpunishing, hget⟩ := foldlM_resolves (Punishing l)
      proTxHash getMN l.getMN (fun k => (l.getMN k).map fun dmn =>
        dmn.withState (punishedState l.calcMaxPoSePenalty l.nHeight 1000 dmn.pdmnState))
      (l := l.punishedMNs sorter nHeight)
      (fun cur mn hmem hcur hstart =>
        exists_punish hl hcur (getMN_of_mem_punishedMNs hmem hl) hstart)
      (nodup_punishedMNs hl) (s := l) ⟨.refl l, rfl, rfl⟩ (fun _ _ => rfl)
    refine ⟨l', hrun, hpunishing, fun k => ?_⟩
    rw [hget]
    cases hk : l.getMN k with
    | none => simp
    | some dmn =>
      -- a masternode is punished when one with its hash is
      have hmem : k ∈ (l.punishedMNs sorter nHeight).map proTxHash ↔
          dmn ∈ l.punishedMNs sorter nHeight := by
        rw [mem_map]
        constructor
        · rintro ⟨mn, hmn, rfl⟩
          rw [getMN_of_mem_punishedMNs hmn hl] at hk
          cases hk
          exact hmn
        · exact fun hdmn => ⟨dmn, hdmn, hl.proTxHash_eq hk⟩
      simp only [hmem, hban, true_and, Option.map_some]
      split <;> rfl
  · rw [if_neg hban]
    refine ⟨l, rfl, ⟨.refl l, rfl, rfl⟩, fun k => ?_⟩
    simp [hban]

/-- Entries that are changed one by one are enumerated in the old order. -/
lemma mns_map {change : CDeterministicMN → CDeterministicMN}
    (hget : ∀ k, l'.getMN k = (l.getMN k).map change) : l'.mns = l.mns.map change := by
  have hmap : l'.mnMap = l.mnMap.map fun _ => change := by
    apply Std.ExtTreeMap.ext_getElem?
    intro k
    rw [Std.ExtTreeMap.getElem?_map]
    exact hget k
  unfold mns
  rw [hmap, Std.ExtTreeMap.toList_map, map_map, map_map]
  rfl

lemma isBanned_punishedState {state : CDeterministicMNState} (hstate : state.isBanned = false)
    {listHeight : Int} (hheight : listHeight ≠ -1) (maxPenalty penalty : Int) :
    (punishedState maxPenalty listHeight penalty state).isBanned = true ↔
      state.nPoSePenalty + penalty ≥ maxPenalty := by
  have hnot : state.nPoSeBanHeight = -1 := by simpa [isBanned] using hstate
  simp only [punishedState, banIfNotBanned, isBanned,
    hnot, bne_self_eq_false, Bool.false_eq_true, not_false_iff, and_true, if_false]
  by_cases hmax : state.nPoSePenalty + penalty ≥ maxPenalty
  · simp [hmax, hheight]
  · simp [hmax]

lemma isPoSeBanned_afterBans (hheight : l.nHeight ≠ -1) (dmn : CDeterministicMN) :
    (l.afterBans sorter nHeight dmn).isPoSeBanned = dmn.isPoSeBanned ↔
      ¬ (isBanHeight nHeight = true ∧ dmn ∈ l.punishedMNs sorter nHeight ∧
        dmn.pdmnState.nPoSePenalty + 1000 ≥ l.calcMaxPoSePenalty) := by
  unfold afterBans
  split
  · next hpunished =>
    have hbanned := not_isPoSeBanned_of_mem hpunished.2
    have hiff := isBanned_punishedState hbanned hheight l.calcMaxPoSePenalty 1000
    rw [hbanned, ← hiff]
    simp [hpunished, isPoSeBanned]
  · next hpunished =>
    simp only [true_iff]
    exact fun hbans => hpunished ⟨hbans.1, hbans.2.1⟩

lemma ofMN_afterBans (dmn : CDeterministicMN) :
    CSimplifiedMNListEntry.ofMN (l.afterBans sorter nHeight dmn) =
      { CSimplifiedMNListEntry.ofMN dmn with
        isValid := !(l.afterBans sorter nHeight dmn).isPoSeBanned } := by
  unfold afterBans punishedState banIfNotBanned
  dsimp only
  split
  · split
    · split <;> rfl
    · rfl
  · rfl

/-- **Bans and the root.** The ban step changes the root of the simplified list exactly if
it takes some masternode to the highest penalty. -/
theorem calcMerkleRoot_banOldNodes_iff {hashes : MerkleHashes} (hfree : hashes.NoCollision)
    (hheight : l.nHeight ≠ -1)
    (hget : ∀ k, l'.getMN k = (l.getMN k).map (l.afterBans sorter nHeight))
    (hl : l.WellIndexed) :
    (CSimplifiedMNList.calcMerkleRoot hashes (.ofList l')).1 =
        (CSimplifiedMNList.calcMerkleRoot hashes (.ofList l)).1 ↔
      l.bansSome sorter nHeight = false := by
  rw [CSimplifiedMNList.calcMerkleRoot_eq_iff hfree (mns_map hget) fun dmn _ => ofMN_afterBans dmn]
  simp only [isPoSeBanned_afterBans hheight]
  rw [← Bool.not_eq_true]
  simp only [bansSome, Bool.and_eq_true, any_eq_true, decide_eq_true_eq]
  constructor
  · rintro hnone ⟨hban, mn, hmem, hpenalty⟩
    have hmns := hl.mem_mns_iff.mpr (getMN_of_mem_punishedMNs hmem hl)
    exact hnone mn hmns ⟨hban, hmem, hpenalty⟩
  · rintro hsome dmn - ⟨hban, hmem, hpenalty⟩
    exact hsome ⟨hban, dmn, hmem, hpenalty⟩

end Bans

end CDeterministicMNList

end HootChain.Evo

import HootChain.Evo.OldNodeBans
import HootChain.Foundation.SortedCut

/-!
# The Order of the Scheduled Bans

`ForEachMN` goes over the list in the order of a hash map, which depends on how the list came
about, and `std::sort` compares registration heights only. Before block 290000 the ban step
stops after five masternodes. Two nodes with one list then ban the same masternodes exactly if
the fifth and the sixth eligible masternode were not registered at one height.
-/

namespace HootChain.Evo

open Foundation List CDeterministicMN
open Foundation.SortedCut

/-! ## Enumerations -/

/-- `nRegisteredHeight` of a masternode. -/
def CDeterministicMN.registeredHeight (mn : CDeterministicMN) : Int :=
  mn.pdmnState.nRegisteredHeight

namespace CDeterministicMNList

/-- The filter of the ban step. -/
def isEligible (mn : CDeterministicMN) : Bool :=
  !mn.isPoSeBanned && mn.pdmnState.nRegisteredHeight < 271000

/-- The masternodes the loop gets to, if `ForEachMN` goes over them as in `enumeration`. -/
def punishedFrom (sorter : RegistrationSort) (nHeight : Int)
    (enumeration : List CDeterministicMN) : List CDeterministicMN :=
  let mnSorted := sorter.sort (enumeration.filter isEligible)
  if nHeight < 290000 then mnSorted.take 5 else mnSorted

/-- The ban step of `ProcessBlock` with this enumeration. -/
def banOldNodesFrom (sorter : RegistrationSort) (nHeight : Int)
    (enumeration : List CDeterministicMN) (l : CDeterministicMNList) : ListResult :=
  if isBanHeight nHeight then
    (punishedFrom sorter nHeight enumeration).foldlM
      (fun newList mn => newList.poSePunish mn.proTxHash 1000) l
  else
    .ok l

section Enumerations

variable {sorter : RegistrationSort} {nHeight : Int} {enumeration : List CDeterministicMN}
  {l : CDeterministicMNList}

lemma perm_eligible (hperm : enumeration.Perm l.mns) :
    (enumeration.filter isEligible).Perm l.eligibleMNs :=
  hperm.filter _

/-- Another enumeration is another sort. -/
def sorterFrom (sorter : RegistrationSort) (l : CDeterministicMNList)
    (hperm : enumeration.Perm l.mns) : RegistrationSort where
  sort mns := if mns = l.eligibleMNs then sorter.sort (enumeration.filter isEligible)
    else sorter.sort mns
  perm mns := by
    split
    case isTrue heq =>
      rw [heq]
      exact (sorter.perm _).trans (perm_eligible hperm)
    case isFalse => exact sorter.perm mns
  sorted mns := by
    split
    · exact sorter.sorted _
    · exact sorter.sorted mns

lemma banOldNodesFrom_eq (hperm : enumeration.Perm l.mns) :
    l.banOldNodesFrom sorter nHeight enumeration =
      l.banOldNodes (sorterFrom sorter l hperm) nHeight := by
  have hpunished : punishedFrom sorter nHeight enumeration =
      l.punishedMNs (sorterFrom sorter l hperm) nHeight := by
    simp [punishedFrom, punishedMNs, sorterFrom]
  rw [banOldNodesFrom, banOldNodes, hpunished]

/-- The enumeration in the order of the map. -/
lemma banOldNodesFrom_mns :
    l.banOldNodesFrom sorter nHeight l.mns = l.banOldNodes sorter nHeight := rfl

end Enumerations

/-! ## Lists after the bans -/

section Bans

variable {sorter sorter' : RegistrationSort} {nHeight : Int} {l l' : CDeterministicMNList}

/-- A list is determined by its entries and by what the bans leave alone. -/
lemma eq_of_punishing {l₁ l₂ : CDeterministicMNList} (h₁ : Punishing l l₁)
    (h₂ : Punishing l l₂) (hget : ∀ k, l₁.getMN k = l₂.getMN k) : l₁ = l₂ := by
  have hmap : l₁.mnMap = l₂.mnMap := Std.ExtTreeMap.ext_getElem? hget
  have hhash : l₁.blockHash = l₂.blockHash := congrArg Prod.fst (h₁.stamp.trans h₂.stamp.symm)
  have hheight := h₁.sameCores.height.trans h₂.sameCores.height.symm
  have hids := h₁.sameCores.ids.trans h₂.sameCores.ids.symm
  have hproperties := h₁.sameCores.properties.trans h₂.sameCores.properties.symm
  have hregistered := h₁.sameCores.registered.trans h₂.sameCores.registered.symm
  cases l₁
  simp_all

/-- Punishing changes a masternode that is not banned. -/
lemma punishedState_ne {state : CDeterministicMNState} (hstate : state.isBanned = false)
    {listHeight : Int} (hheight : listHeight ≠ -1) (maxPenalty : Int) :
    punishedState maxPenalty listHeight 1000 state ≠ state := by
  intro heq
  have hiff := isBanned_punishedState hstate hheight maxPenalty 1000
  rw [heq, hstate] at hiff
  -- without a ban the penalty goes up
  have hlow : ¬ state.nPoSePenalty + 1000 ≥ maxPenalty := fun hge => by simpa using hiff.mpr hge
  have hpenalty := congrArg CDeterministicMNState.nPoSePenalty heq
  rw [punishedState, if_neg] at hpenalty
  · dsimp only at hpenalty
    omega
  · dsimp only
    omega

lemma afterBans_eq_iff (hban : isBanHeight nHeight = true) (hheight : l.nHeight ≠ -1)
    {dmn : CDeterministicMN} :
    l.afterBans sorter nHeight dmn = dmn ↔ dmn ∉ l.punishedMNs sorter nHeight := by
  unfold afterBans
  by_cases hmem : dmn ∈ l.punishedMNs sorter nHeight
  · rw [if_pos ⟨hban, hmem⟩]
    simp only [hmem, not_true_eq_false, iff_false]
    intro heq
    exact punishedState_ne (not_isPoSeBanned_of_mem hmem) hheight _
      (congrArg pdmnState heq)
  · simp [hmem]

/-- Two sorts lead to one list exactly if the loop gets to the same masternodes. -/
lemma banOldNodes_eq_iff (hl : l.WellIndexed) (hban : isBanHeight nHeight = true)
    (hheight : l.nHeight ≠ -1) :
    l.banOldNodes sorter nHeight = l.banOldNodes sorter' nHeight ↔
      ∀ dmn, dmn ∈ l.punishedMNs sorter nHeight ↔ dmn ∈ l.punishedMNs sorter' nHeight := by
  obtain ⟨l₁, hrun₁, hpunishing₁, hget₁⟩ := exists_banOldNodes sorter nHeight hl
  obtain ⟨l₂, hrun₂, hpunishing₂, hget₂⟩ := exists_banOldNodes sorter' nHeight hl
  rw [hrun₁, hrun₂]
  constructor
  · intro heq dmn
    cases heq
    by_cases hdmn : l.getMN dmn.proTxHash = some dmn
    · -- the entry of the masternode tells whether it was punished
      have hentry := (hget₁ dmn.proTxHash).symm.trans (hget₂ dmn.proTxHash)
      rw [hdmn, Option.map_some, Option.map_some, Option.some.injEq] at hentry
      by_cases hmem : dmn ∈ l.punishedMNs sorter nHeight
      · simp only [hmem, true_iff]
        by_contra hnot
        rw [(afterBans_eq_iff hban hheight).mpr hnot, afterBans_eq_iff hban hheight] at hentry
        exact hentry hmem
      · simp only [hmem, false_iff]
        rw [(afterBans_eq_iff hban hheight).mpr hmem, eq_comm,
          afterBans_eq_iff hban hheight] at hentry
        exact hentry
    · exact ⟨fun hmem => absurd (getMN_of_mem_punishedMNs hmem hl) hdmn,
        fun hmem => absurd (getMN_of_mem_punishedMNs hmem hl) hdmn⟩
  · intro hsame
    refine congrArg _ (eq_of_punishing hpunishing₁ hpunishing₂ fun k => ?_)
    rw [hget₁, hget₂]
    have hafter : l.afterBans sorter nHeight = l.afterBans sorter' nHeight := by
      funext dmn
      simp [afterBans, hsame]
    rw [hafter]

/-! ## Ties at the cut -/

/-- The sort that exchanges two masternodes at the cut, if they were registered at one height. -/
def swappingSorter : RegistrationSort where
  sort mns := swapTies registeredHeight 4 (insertionSorter.sort mns)
  perm mns := (perm_swapTies ..).trans (insertionSorter.perm mns)
  sorted mns := sorted_swapTies (insertionSorter.sorted mns) 4

/-- The bans do not depend on the order: there are more than five only from block 290000 on,
or the cut is between different registration heights. -/
def BansDetermined (nHeight : Int) (l : CDeterministicMNList) : Prop :=
  290000 ≤ nHeight ∨ l.eligibleMNs.length ≤ 5 ∨
    CutsAt registeredHeight 5 l.eligibleMNs

lemma mem_punishedMNs_iff (hdetermined : BansDetermined nHeight l) (dmn : CDeterministicMN) :
    dmn ∈ l.punishedMNs sorter nHeight ↔ dmn ∈ l.punishedMNs sorter' nHeight := by
  have hperm := (sorter.perm l.eligibleMNs).trans (sorter'.perm l.eligibleMNs).symm
  unfold punishedMNs
  rcases hdetermined with hlate | hfew | hcut
  · rw [if_neg (by omega), if_neg (by omega)]
    exact hperm.mem_iff
  · split
    · have hlen := (sorter.perm l.eligibleMNs).length_eq
      have hlen' := (sorter'.perm l.eligibleMNs).length_eq
      rw [take_of_length_le (by omega), take_of_length_le (by omega)]
      exact hperm.mem_iff
    · exact hperm.mem_iff
  · split
    · exact mem_take_iff (sorter.sorted _) (sorter'.sorted _) hperm
        (hcut.perm (sorter.perm _).symm) dmn
    · exact hperm.mem_iff

/-- A tie at the cut makes the loop get to one of two masternodes. -/
lemma exists_mem_punishedMNs (hl : l.WellIndexed) (hdetermined : ¬ BansDetermined nHeight l) :
    ∃ dmn, dmn ∈ l.punishedMNs insertionSorter nHeight ∧
      dmn ∉ l.punishedMNs swappingSorter nHeight := by
  simp only [BansDetermined, not_or, not_le] at hdetermined
  obtain ⟨hearly, hmany, hcut⟩ := hdetermined
  have hperm := insertionSorter.perm l.eligibleMNs
  have hsorted : Sorted registeredHeight (insertionSorter.sort l.eligibleMNs) :=
    insertionSorter.sorted _
  obtain ⟨pre, a, b, post, hsplit, hlen, hkey⟩ :=
    exists_tie (n := 4) hsorted (hperm.length_eq ▸ hmany) fun h => hcut (h.perm hperm)
  have hnodup : (pre ++ a :: b :: post).Nodup := by
    rw [← hsplit, hperm.nodup_iff]
    exact ((nodup_mns hl.proTxHash_eq).of_map _).filter _
  refine ⟨a, ?_, ?_⟩
  · -- the sorted list has the first of the two at position four, the other one the second
    simp [punishedMNs, if_pos hearly, hsplit, take_succ_append hlen]
  · simp only [punishedMNs, if_pos hearly, swappingSorter, hsplit, swapTies_eq hlen hkey,
      take_succ_append hlen]
    simp only [nodup_append, nodup_cons, mem_cons, not_or] at hnodup
    obtain ⟨-, ⟨⟨hab, -⟩, -⟩, hcross⟩ := hnodup
    rw [mem_append, mem_singleton, not_or]
    exact ⟨fun hmem => hcross a hmem a (.inl rfl) rfl, hab⟩

/-- **Order of the bans.** At a ban height, all enumerations of a list and all sorts lead to the
same list exactly if the loop goes on to the end, or stops between masternodes that were
registered at different heights. -/
theorem oldNodeBans_orderFree_iff (hl : l.WellIndexed) (hheight : l.nHeight = nHeight)
    (hban : isBanHeight nHeight = true) :
    (∀ (sorter sorter' : RegistrationSort) (enumeration enumeration' : List CDeterministicMN),
      enumeration.Perm l.mns → enumeration'.Perm l.mns →
        l.banOldNodesFrom sorter nHeight enumeration =
          l.banOldNodesFrom sorter' nHeight enumeration') ↔
      BansDetermined nHeight l := by
  have hpos : l.nHeight ≠ -1 := by
    intro hneg
    rw [← hheight, hneg] at hban
    cases hban
  constructor
  · intro hsame
    by_contra hdetermined
    obtain ⟨dmn, hmem, hnot⟩ := exists_mem_punishedMNs hl hdetermined
    have heq := hsame insertionSorter swappingSorter l.mns l.mns (.refl _) (.refl _)
    rw [banOldNodesFrom_mns, banOldNodesFrom_mns, banOldNodes_eq_iff hl hban hpos] at heq
    exact hnot ((heq dmn).mp hmem)
  · intro hdetermined sorter sorter' enumeration enumeration' hperm hperm'
    rw [banOldNodesFrom_eq hperm, banOldNodesFrom_eq hperm', banOldNodes_eq_iff hl hban hpos]
    exact mem_punishedMNs_iff hdetermined

end Bans

/-! ## Six masternodes registered at one height -/

/-- Masternode number `n`, registered at height 1000. -/
def oldMN (n : Nat) : CDeterministicMN where
  internalId := n
  proTxHash := n + 1
  collateralOutpoint := ⟨n + 1, 0⟩
  nOperatorReward := 0
  nType := .regular
  pdmnState := { keyIDOwner := n + 1, nRegisteredHeight := 1000 }

/-- `n` masternodes at height 289000. -/
def oldMNs (n : Nat) : ListResult :=
  ((range n).map oldMN).foldlM (fun l dmn => l.addMN dmn true) (initial 0 289000)

lemma wellIndexed_oldMNs {n : Nat} {l : CDeterministicMNList} (h : oldMNs n = .ok l) :
    l.WellIndexed :=
  foldlM_preserves WellIndexed (fun _ _ _ _ hcur hadd => hcur.addMN hadd)
    (WellIndexed.initial 0 289000) h

/-- What there is in the list. -/
def oldMNsListed (n : Nat) (l : CDeterministicMNList) : Bool :=
  l.nHeight = 289000 && l.eligibleMNs.length = n &&
    l.eligibleMNs.all fun mn => mn.registeredHeight = 1000

lemma exists_oldMNs {n : Nat} (h : (oldMNs n).toOption.any (oldMNsListed n) = true) :
    ∃ l, oldMNs n = .ok l ∧ l.nHeight = 289000 ∧ l.eligibleMNs.length = n ∧
      ∀ mn ∈ l.eligibleMNs, mn.registeredHeight = 1000 := by
  cases hrun : oldMNs n with
  | error e =>
    rw [hrun] at h
    cases h
  | ok l =>
    rw [hrun] at h
    have hlisted : oldMNsListed n l = true := h
    simp only [oldMNsListed, Bool.and_eq_true, decide_eq_true_eq, all_eq_true] at hlisted
    exact ⟨l, rfl, hlisted.1.1, hlisted.1.2, hlisted.2⟩

theorem oldNodeBans_orderFree_three : ∃ l, oldMNs 3 = .ok l ∧
    l.banOldNodesFrom insertionSorter 289000 l.mns =
      l.banOldNodesFrom swappingSorter 289000 l.mns.reverse := by
  obtain ⟨l, hrun, hheight, hlen, -⟩ := exists_oldMNs (n := 3) (by decide +kernel)
  have hfree := (oldNodeBans_orderFree_iff (wellIndexed_oldMNs hrun) hheight rfl).mpr
    (.inr (.inl (by omega)))
  exact ⟨l, hrun, hfree _ _ _ _ (.refl _) (reverse_perm _)⟩

/-- With six of them, two sorts of one enumeration lead to different lists. -/
theorem oldNodeBans_depend_on_sort : ∃ l, oldMNs 6 = .ok l ∧ l.nHeight = 289000 ∧
    isBanHeight 289000 = true ∧ l.banOldNodesFrom insertionSorter 289000 l.mns ≠
      l.banOldNodesFrom swappingSorter 289000 l.mns := by
  obtain ⟨l, hrun, hheight, hlen, hsame⟩ := exists_oldMNs (n := 6) (by decide +kernel)
  have hl := wellIndexed_oldMNs hrun
  -- a bound on the registration height holds for all six or for none
  have hcut : ¬ CutsAt registeredHeight 5 l.eligibleMNs := by
    rintro ⟨x, hx⟩
    by_cases hle : (1000 : Int) ≤ x
    · rw [filter_eq_self.mpr fun mn hmn => by simpa [hsame mn hmn] using hle] at hx
      omega
    · rw [filter_eq_nil_iff.mpr fun mn hmn => by simpa [hsame mn hmn] using hle] at hx
      cases hx
  have hdetermined : ¬ BansDetermined 289000 l := by
    rintro (hlate | hfew | hcuts)
    · omega
    · omega
    · exact hcut hcuts
  obtain ⟨dmn, hmem, hnot⟩ := exists_mem_punishedMNs hl hdetermined
  refine ⟨l, hrun, hheight, rfl, fun heq => hnot ?_⟩
  rw [banOldNodesFrom_mns, banOldNodesFrom_mns,
    banOldNodes_eq_iff hl rfl (by rw [hheight]; decide)] at heq
  exact (heq dmn).mp hmem

end CDeterministicMNList

end HootChain.Evo

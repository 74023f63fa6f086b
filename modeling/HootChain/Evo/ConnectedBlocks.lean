import HootChain.Evo.BanOrder
import HootChain.Evo.DiffRoundTrip

/-!
# What a Connected Block Bans and Reports

From block 302000 on, every fiftieth block is meant to ban the masternodes that were
registered before the collateral went up. It punishes them by a fixed amount, and the
penalty that bans grows with the list.

`ProcessBlock` and `UndoBlock` report the lists before and after with the diff between
them. `ProcessBlock` fills the record of the three in the wrong order, `UndoBlock` in the right
one.
-/

namespace HootChain.Evo

open Foundation CDeterministicMNList MnNode List Option Bool

/-! ## Scheduled bans -/

/-- In `l` the masternodes of `new` that were registered before the collateral went up are
banned, and the other ones are as in `new`. -/
def BansOldNodes (new l : CDeterministicMNList) : Prop :=
  ∀ k, match new.getMN k with
    | none => l.getMN k = none
    | some dmn => ∃ dmn', l.getMN k = some dmn' ∧
      if dmn.registeredHeight < 271000 then dmn'.isPoSeBanned = true else dmn' = dmn

/-- Every punishment of the block bans. -/
def PunishmentsBan (new : CDeterministicMNList) : Prop :=
  ∀ dmn ∈ new.eligibleMNs, dmn.pdmnState.nPoSePenalty + 1000 ≥ new.calcMaxPoSePenalty

/-- A height at which all old masternodes are punished. -/
def IsLateBanHeight (nHeight : Int) : Prop := 302000 ≤ nHeight ∧ nHeight.tmod 50 = 0

lemma IsLateBanHeight.isBanHeight {nHeight : Int} (hlate : IsLateBanHeight nHeight) :
    isBanHeight nHeight = true := by
  simp [Evo.isBanHeight, hlate.1, hlate.2]

section Bans

variable {sorter : RegistrationSort} {nHeight : Int} {new l : CDeterministicMNList}

lemma mem_punishedMNs_of_late (hlate : 290000 ≤ nHeight) {dmn : CDeterministicMN} :
    dmn ∈ new.punishedMNs sorter nHeight ↔ dmn ∈ new.eligibleMNs := by
  rw [punishedMNs, if_neg (not_lt.mpr hlate)]
  exact (sorter.perm _).mem_iff

/-- A late ban height bans the old masternodes exactly if every punishment does. -/
lemma bansOldNodes_iff (hnew : new.WellIndexed) (hheight : new.nHeight ≠ -1)
    (hlate : IsLateBanHeight nHeight)
    (hget : ∀ k, l.getMN k = (new.getMN k).map (new.afterBans sorter nHeight)) :
    BansOldNodes new l ↔ PunishmentsBan new := by
  have hban := hlate.isBanHeight
  have hpunished : ∀ dmn, dmn ∈ new.punishedMNs sorter nHeight ↔ dmn ∈ new.eligibleMNs :=
    fun dmn => mem_punishedMNs_of_late (le_trans (by decide) hlate.1)
  have hmem : ∀ {dmn}, dmn ∈ new.eligibleMNs ↔ new.getMN dmn.proTxHash = some dmn ∧
      dmn.isPoSeBanned = false ∧ dmn.registeredHeight < 271000 := by
    intro dmn
    rw [eligibleMNs, mem_filter, hnew.mem_mns_iff]
    simp [CDeterministicMN.registeredHeight]
  have hbans : ∀ {dmn}, dmn ∈ new.eligibleMNs →
      ((new.afterBans sorter nHeight dmn).isPoSeBanned = true ↔
        dmn.pdmnState.nPoSePenalty + 1000 ≥ new.calcMaxPoSePenalty) := by
    intro dmn heligible
    rw [← not_eq_false, ← (hmem.mp heligible).2.1, isPoSeBanned_afterBans hheight]
    simp [hban, hpunished, heligible]
  constructor
  · intro h dmn heligible
    obtain ⟨hdmn, -, hold⟩ := hmem.mp heligible
    have hentry := h dmn.proTxHash
    simp only [hdmn, hget, map_some, some.injEq, exists_eq_left', if_pos hold] at hentry
    exact (hbans heligible).mp hentry
  · intro h k
    cases hdmn : new.getMN k with
    | none => simp [hget, hdmn]
    | some dmn =>
      refine ⟨_, by rw [hget, hdmn, map_some], ?_⟩
      by_cases heligible : dmn ∈ new.eligibleMNs
      · rw [if_pos (hmem.mp heligible).2.2]
        exact (hbans heligible).mpr (h dmn heligible)
      · rw [(afterBans_eq_iff hban hheight).mpr ((hpunished dmn).not.mpr heligible)]
        rw [hmem, hnew.proTxHash_eq hdmn] at heligible
        split
        case isTrue hold => exact eq_true_of_not_eq_false fun hnot => heligible ⟨hdmn, hnot, hold⟩
        case isFalse => rfl

/-- **Scheduled bans.** A node connects a block after any run. If the block is at a late ban
height, the list the node returns for it from then on has the old masternodes banned and the
other ones as they were built, exactly if every punishment of the block bans. -/
theorem scheduledBans_iff (env : MnEnv) (hashes : MerkleHashes) (sorter : RegistrationSort)
    (genesis : CBlock) (before after : List MnEvent) (block : CBlock) :
    let n := (start genesis).run env hashes sorter before
    let n' := n.step env hashes sorter (.connectBlock block true)
    n'.chain = block :: n.chain → env.isDIP0003Active n.chain = true →
    ∃ old new l, n.listOf env n.chain = .ok old ∧
      buildNewListFromBlock env n.chain block old = .ok new ∧
      (n'.run env hashes sorter after).listOf env (block :: n.chain) = .ok l ∧
      ((IsLateBanHeight (CBlockIndex.nHeight (block :: n.chain)) → BansOldNodes new l) ↔
        (IsLateBanHeight (CBlockIndex.nHeight (block :: n.chain)) → PunishmentsBan new)) := by
  intro n n' haccepted hactive
  have hn : n.Sound hashes := ((sound_start hashes genesis).run env sorter before).1
  obtain ⟨old, new, l, hold, hbuilt, hlists⟩ := hn.exists_built haccepted hactive
  refine ⟨old, new, l, hold, hbuilt.build, (hlists after).2, ?_⟩
  refine forall_congr' fun hlate => ?_
  obtain ⟨change, rfl | ⟨hquiet, -⟩, hget⟩ := hbuilt.list
  · exact bansOldNodes_iff hbuilt.indexed hbuilt.height_ne hlate hget
  · rw [hlate.isBanHeight] at hquiet
    cases hquiet

/-- At height 302000 the only masternode, registered at height 2, is banned. -/
theorem scheduledBans_iff_lateBlock : ∃ before block old new l,
    let n := (start genesisBlock).run mainEnv pairingHashes insertionSorter before
    let n' := n.step mainEnv pairingHashes insertionSorter (.connectBlock block true)
    IsLateBanHeight (CBlockIndex.nHeight (block :: n.chain)) ∧
      n.listOf mainEnv n.chain = .ok old ∧
      buildNewListFromBlock mainEnv n.chain block old = .ok new ∧
      (∃ dmn, new.mns = [dmn] ∧ dmn.registeredHeight < 271000) ∧
      (n'.run mainEnv pairingHashes insertionSorter [.restart]).listOf mainEnv
        (block :: n.chain) = .ok l ∧ BansOldNodes new l := by
  obtain ⟨before, block, -, -, hactive, hheight, -, haccepted, hlone⟩ := exists_connected_lone 301997
  obtain ⟨old, new, l, hold, hbuild, hlist, hiff⟩ := scheduledBans_iff mainEnv pairingHashes
    insertionSorter genesisBlock before [.restart] block haccepted hactive
  have hnew := hlone hold hbuild
  have hbans := hiff.mpr fun _ dmn hmem => hnew.calcMaxPoSePenalty_le dmn (mem_filter.mp hmem).1
  obtain ⟨dmn, hmns, hstanding⟩ := hnew
  refine ⟨before, block, old, new, l, ?late, hold, hbuild, ⟨dmn, hmns, hstanding.registered⟩, hlist,
    hbans ?late⟩
  rw [hheight]
  exact ⟨by decide, rfl⟩

/-- Masternodes registered at height 1000 make a list of any size. -/
lemma exists_oldMNs_of_size (n : Nat) : ∃ l, oldMNs n = .ok l ∧ l.getAllMNsCount = n ∧
    ∀ {k mn}, l.getMN k = some mn → ∃ i < n, mn = oldMN i := by
  induction n with
  | zero => exact ⟨_, rfl, rfl, nofun⟩
  | succ n ih =>
    obtain ⟨l, hrun, hcount, hmns⟩ := ih
    have hl := wellIndexed_oldMNs hrun
    have hfree : ∀ p ∈ (oldMN n).properties, ∀ h, ¬ l.Holds h p := by
      rintro p hp h ⟨mn, hmn, hp'⟩
      obtain ⟨i, hi, rfl⟩ := hmns hmn
      simp [CDeterministicMN.properties, oldMN, CService.null, CBLSLazyPublicKey.isValid] at hp hp'
      rcases hp with rfl | rfl <;> simp at hp' <;> omega
    have hnone : l.getMN (oldMN n).proTxHash = none := by
      rw [eq_none_iff_forall_ne_some]
      intro mn hmn
      obtain ⟨i, hi, rfl⟩ := hmns hmn
      exact hi.ne (Nat.succ.inj (hl.proTxHash_eq hmn))
    obtain ⟨l', hadd⟩ : ∃ l', l.addMN (oldMN n) true = .ok l' := by
      refine exists_addMN hl ⟨rfl, n.succ_ne_zero⟩ hnone (fun h mn hmn => ?_) hfree
      obtain ⟨i, hi, rfl⟩ := hmns hmn
      exact hi.ne
    refine ⟨l', ?_, ?_, fun {k mn} hmn => ?_⟩
    · rw [oldMNs, range_succ, map_append, foldlM_append, ← oldMNs, hrun]
      simpa [bind_eq_ok] using hadd
    · obtain ⟨-, -, m, -, rfl⟩ := addMN_eq_ok.mp hadd
      have hnot : ¬ (oldMN n).proTxHash ∈ l.mnMap := by
        rw [Std.ExtTreeMap.mem_iff_isSome_getElem?]
        simp [show l.mnMap[(oldMN n).proTxHash]? = none from hnone]
      exact (Std.ExtTreeMap.size_insert.trans (if_neg hnot)).trans (congrArg _ hcount)
    · rw [getMN_addMN hadd] at hmn
      split at hmn
      · exact ⟨n, n.lt_succ_self, (some.inj hmn).symm⟩
      · obtain ⟨i, hi, rfl⟩ := hmns hmn
        exact ⟨i, hi.trans n.lt_succ_self, rfl⟩

/-- With 1001 old masternodes, all at penalty zero, nobody is banned. -/
theorem scheduledBans_fail : ∃ new l, new.WellIndexed ∧ new.nHeight = 302000 ∧
    IsLateBanHeight 302000 ∧ new.banOldNodes insertionSorter 302000 = .ok l ∧
    ¬ BansOldNodes new l := by
  obtain ⟨new, hrun, hcount, hmns⟩ := exists_oldMNs_of_size 1001
  have hl := wellIndexed_oldMNs hrun
  have hnew : WellIndexed { new with nHeight := 302000 } := hl.stamped ..
  have hlate : IsLateBanHeight 302000 := ⟨by decide, rfl⟩
  obtain ⟨l, hban, -, hget⟩ := exists_banOldNodes insertionSorter 302000 hnew
  refine ⟨_, l, hnew, rfl, hlate, hban, fun hbans => ?_⟩
  have hpunish := (bansOldNodes_iff hnew (by simp) hlate hget).mp hbans
  -- any of them has the penalty 1000 afterwards, and 1001 bans
  have hlength : new.mns.length = 1001 := by
    rw [mns, length_map, Std.ExtTreeMap.length_toList]
    exact hcount
  obtain ⟨mn, hmem⟩ := exists_mem_of_length_pos (l := new.mns) (by omega)
  obtain ⟨i, -, rfl⟩ := hmns (hl.mem_mns_iff.mp hmem)
  have hle := hpunish (oldMN i) (mem_filter.mpr ⟨hmem, rfl⟩)
  have hmax : (0 : Int) + 1000 ≥ max 100 (new.getAllMNsCount : Int) := hle
  rw [hcount] at hmax
  exact absurd hmax (by decide)

end Bans

/-! ## Reports -/

/-- `MNListUpdates`. -/
structure MNListUpdates where
  oldList : CDeterministicMNList
  newList : CDeterministicMNList
  diff : CDeterministicMNListDiff

section

variable (env : MnEnv)

/-- What `ProcessBlock` reports: the record is filled with the new list first. -/
def processBlockUpdates (sorter : RegistrationSort) (block : CBlock) (pprev : CBlockIndex) :
    MnM (Option MNListUpdates) := do
  let newList ← buildFromStored env block pprev
  let newList := { newList with blockHash := block.hash }
  let oldList ← getListForBlockInternal env pprev
  let diff := oldList.buildDiff newList
  let newList ← Prog.lift (newList.banOldNodes sorter (CBlockIndex.nHeight (block :: pprev)))
  Prog.lift (.ok (if diff.hasChanges then some ⟨newList, oldList, diff⟩ else none))

/-- What `UndoBlock` reports. -/
def undoBlockUpdates (block : CBlock) (pprev : CBlockIndex) : MnM (Option MNListUpdates) := do
  let s ← get
  if (s.evoDb.diffs block.hash).any CDeterministicMNListDiff.hasChanges then do
    let curList ← getListForBlockInternal env (block :: pprev)
    let prevList ← getListForBlockInternal env pprev
    pure (some ⟨curList, prevList, curList.buildDiff prevList⟩)
  else pure none

/-- The lists are those of the two blocks, and the diff leads from the one to the other. -/
structure MNListUpdates.Leads (u : MNListUpdates) (env : MnEnv) (n : MnNode)
    (pold pnew : CBlockIndex) : Prop where
  oldList : n.listOf env pold = .ok u.oldList
  newList : n.listOf env pnew = .ok u.newList
  diff : u.oldList.applyDiff u.newList.blockHash u.newList.nHeight u.diff = .ok u.newList

/-- What is reported when the block is connected leads from its parent to it. -/
def ReportsConnected (hashes : MerkleHashes) (sorter : RegistrationSort) (n : MnNode)
    (block : CBlock) : Prop :=
  let n' := n.step env hashes sorter (.connectBlock block true)
  ∀ u, (runs (processBlockUpdates env sorter block n.chain) n.state).1 = .ok (some u) →
    u.Leads env n' n.chain (block :: n.chain)

section Reports

variable {env} {hashes : MerkleHashes} {sorter : RegistrationSort} {n : MnNode} {block : CBlock}
  {old new l : CDeterministicMNList} (hn : n.Sound hashes)

include hn

lemma MnNode.Sound.wellIndexed_tip (hl : n.listOf env n.chain = .ok l) :
    l.WellIndexed := by
  obtain ⟨l', htip⟩ := hn.tip
  rw [hn.listOf_eq env suffix_rfl, htip.listFor] at hl
  cases hl
  exact htip.indexed

/-- What `ProcessBlock` reports names the list of the block as that of its parent. -/
lemma reportsConnected_iff
    (hold : n.listOf env n.chain = .ok old)
    (hbuilt : Built env hashes sorter block n.chain true old new l)
    (hparent : (n.step env hashes sorter (.connectBlock block true)).listOf env n.chain = .ok old) :
    ReportsConnected env hashes sorter n block ↔ (old.buildDiff new).hasChanges = false := by
  have hindexed : WellIndexed { new with blockHash := block.hash } := hbuilt.indexed.stamped ..
  obtain ⟨banned, hban, hpunishing, -⟩ := exists_banOldNodes sorter
    (CBlockIndex.nHeight (block :: n.chain)) hindexed
  rw [hn.listOf_eq env suffix_rfl] at hold
  have hreport : (runs (processBlockUpdates env sorter block n.chain) n.state).1 =
      .ok (if (old.buildDiff new).hasChanges then some ⟨banned, old, old.buildDiff new⟩
        else none) := by
    have hreads : Reads (Coherent hashes n.chain n.seen) EvoState.evoDb
        (processBlockUpdates env sorter block n.chain) _ :=
      (reads_buildFromStored env block suffix_rfl).bind fun _ =>
        (reads_getListForBlockInternal env suffix_rfl).bind fun _ =>
          (Reads.lift _).bind fun _ => Reads.lift _
    rw [hreads.result hn.coherent, MnDb.newListFor, hold]
    simp only [Bind.bind, Except.bind, hbuilt.build, hban]
    rfl
  constructor
  · intro hprocess
    by_contra hchanges
    rw [not_eq_false] at hchanges
    rw [if_pos hchanges] at hreport
    -- the parent would have the list of the block
    obtain rfl : banned = old :=
      Except.ok.inj ((hprocess _ hreport).oldList.symm.trans hparent)
    have hheight := hn.coherent.height_listFor hn.nonempty hold
    rw [hpunishing.sameCores.height, hbuilt.height, nHeight_cons] at hheight
    omega
  · intro hnone u hu
    rw [hreport, hnone] at hu
    cases hu

/-- What `UndoBlock` reports: the list of the block, that of its parent, and the diff from the
one to the other. -/
lemma undoBlockUpdates_eq {pprev : CBlockIndex} (hchain : n.chain = block :: pprev)
    {u : MNListUpdates}
    (hu : (runs (undoBlockUpdates env block pprev) n.state).1 = .ok (some u)) :
    n.listOf env (block :: pprev) = .ok u.oldList ∧ n.listOf env pprev = .ok u.newList ∧
      u.diff = u.oldList.buildDiff u.newList := by
  have hsuffix : block :: pprev <:+ n.chain := by rw [hchain]
  have hparent : pprev <:+ n.chain := (suffix_cons ..).trans hsuffix
  rw [undoBlockUpdates, runs_bind_of_ok (runs_get n.state)] at hu
  split at hu
  · have hreads : Reads (Coherent hashes n.chain n.seen) EvoState.evoDb
        (getListForBlockInternal env (block :: pprev) >>= fun curList =>
          getListForBlockInternal env pprev >>= fun prevList =>
            pure (some (MNListUpdates.mk curList prevList (curList.buildDiff prevList)))) _ :=
      (reads_getListForBlockInternal env hsuffix).bind fun _ =>
        (reads_getListForBlockInternal env hparent).bind fun _ => Reads.lift (.ok _)
    rw [hreads.result hn.coherent, bind_eq_ok] at hu
    obtain ⟨curList, hcur, hu⟩ := hu
    obtain ⟨prevList, hprev, hu⟩ := bind_eq_ok.mp hu
    cases hu
    exact ⟨(hn.listOf_eq env hsuffix).trans hcur, (hn.listOf_eq env hparent).trans hprev, rfl⟩
  · cases hu

end Reports

/-- **Reports.** A node connects a block after any run. What is reported of the block is
coherent exactly if the block changes no masternode, and then nothing is reported. What is
reported when it is disconnected later on is in order, and coherent exactly if the diff leads
back to the list of the parent with its counter and the schemes of its keys. -/
theorem reportsUpdates_iff (hashes : MerkleHashes) (sorter : RegistrationSort) (genesis : CBlock)
    (before : List MnEvent) (block : CBlock) : let n := (start genesis).run env hashes sorter before
    let n' := n.step env hashes sorter (.connectBlock block true)
    n'.chain = block :: n.chain → env.isDIP0003Active n.chain = true →
    ∃ old new l, n.listOf env n.chain = .ok old ∧
      buildNewListFromBlock env n.chain block old = .ok new ∧
      n'.listOf env (block :: n.chain) = .ok l ∧
      (ReportsConnected env hashes sorter n block ↔ (old.buildDiff new).hasChanges = false) ∧
      ∀ after, let n'' := n'.run env hashes sorter after
        n''.chain = block :: n.chain → l.nTotalRegisteredCount < 2 ^ 32 →
        ∀ u, (runs (undoBlockUpdates env block n.chain) n''.state).1 = .ok (some u) →
          (u.Leads env n'' (block :: n.chain) n.chain ↔ LastStays l old ∧ KeepsSchemes l old) := by
  intro n n' haccepted hactive
  have hn : n.Sound hashes := ((sound_start hashes genesis).run env sorter before).1
  obtain ⟨old, new, l, hold, hbuilt, hlists⟩ := hn.exists_built haccepted hactive
  refine ⟨old, new, l, hold, hbuilt.build, (hlists []).2,
    reportsConnected_iff hn hold hbuilt (hlists []).1, ?_⟩
  intro after n'' htip hcount u hu
  have hn' : n'.Sound hashes := (hn.step env sorter (.connectBlock block true)).1
  have hn'' : n''.Sound hashes := (hn'.run env sorter after).1
  obtain ⟨hcur, hprev, hdiff⟩ := undoBlockUpdates_eq hn'' htip hu
  obtain ⟨hparent, hblock⟩ := hlists after
  obtain rfl := Except.ok.inj (hblock.symm.trans hcur)
  obtain rfl := Except.ok.inj (hparent.symm.trans hprev)
  have hl := hn'.wellIndexed_tip (haccepted.symm ▸ (hlists []).2)
  have hold' := hn.wellIndexed_tip hold
  constructor
  · intro hleads
    have happly := hdiff ▸ hleads.diff
    exact ⟨lastStays_of_applyDiff hold' hcount happly, schemes_of_applyDiff hl hold' happly⟩
  · intro ⟨hlast, hschemes⟩
    refine ⟨hcur, hprev, ?_⟩
    rw [hdiff]
    exact applyDiff_eq_ok hl hold' hcount hbuilt.back hlast hschemes (.refl _)

end

theorem reportsUpdates_iff_secondBlock :
    let n := (start genesisBlock).run mainEnv pairingHashes insertionSorter
      [.connectBlock firstBlock true]
    let n' := n.step mainEnv pairingHashes insertionSorter (.connectBlock secondBlock true)
    ∃ old new l, n.listOf mainEnv n.chain = .ok old ∧
      buildNewListFromBlock mainEnv n.chain secondBlock old = .ok new ∧
      n'.listOf mainEnv (secondBlock :: n.chain) = .ok l ∧
      (ReportsConnected mainEnv pairingHashes insertionSorter n secondBlock ↔
        (old.buildDiff new).hasChanges = false) ∧
      ∀ after, let n'' := n'.run mainEnv pairingHashes insertionSorter after
        n''.chain = secondBlock :: n.chain → l.nTotalRegisteredCount < 2 ^ 32 →
        ∀ u, (runs (undoBlockUpdates mainEnv secondBlock n.chain) n''.state).1 = .ok (some u) →
          (u.Leads mainEnv n'' (secondBlock :: n.chain) n.chain ↔
            LastStays l old ∧ KeepsSchemes l old) :=
  reportsUpdates_iff mainEnv pairingHashes insertionSorter genesisBlock
    [.connectBlock firstBlock true] secondBlock (by decide +kernel) (by decide +kernel)

/-- The block with the registration reports the masternode in the old list, and no masternode in
the new one. -/
theorem reportsUpdates_reversed :
    let n := (start genesisBlock).run mainEnv pairingHashes insertionSorter
      [.connectBlock firstBlock true]
    (runs (processBlockUpdates mainEnv insertionSorter secondBlock n.chain)
      n.state).1.toOption.join.map (fun u => (u.oldList.mns, u.newList.mns)) =
      some ([registeredMN], []) := by
  decide +kernel

end HootChain.Evo

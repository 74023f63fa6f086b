import HootChain.Evo.EmptyBlocks
import HootChain.Evo.MnChain

/-!
# The Root a Coinbase Commits To

Light clients check the masternode list they are served against the root in the
coinbase of the block. The two fit together for a block of an accepted chain, whatever
the node does before and after, unless the bans of the block take effect: the coinbase
commits to the list without them.
-/

namespace HootChain.Evo

open Consensus CDeterministicMNList MnNode List CBlockIndex Nat CSimplifiedMNList

/-! ## The root over whole runs -/

section Root

variable {env : MnEnv} {hashes : MerkleHashes} {sorter : RegistrationSort}

/-- **The committed root.** A node accepts a block after any run. From then on the list it
returns for the block has the root that the coinbase commits to exactly if the bans of the
block take no masternode of the list built for the block to the highest penalty. -/
theorem merkleRootMNList_iff (hfree : hashes.NoCollision) (genesis : CBlock)
    (before after : List MnEvent) {block : CBlock} {cbTx : CCbTx}
    (hcoinbase : block.coinbase = .cbTx cbTx) :
    let n := (start genesis).run env hashes sorter before
    let n' := n.step env hashes sorter (.connectBlock block true)
    n'.chain = block :: n.chain →
    ∃ old new l, n.listOf env n.chain = .ok old ∧
      buildNewListFromBlock env n.chain block old = .ok new ∧
      (n'.run env hashes sorter after).listOf env (block :: n.chain) = .ok l ∧
      ((calcMerkleRoot hashes (.ofList l)).1 = cbTx.merkleRootMNList ↔
        new.bansSome sorter (nHeight (block :: n.chain)) = false) := by
  intro n n' haccepted
  have hn : n.Sound hashes := ((sound_start hashes genesis).run env sorter before).1
  obtain ⟨_, hacceptable⟩ := (hn.connected haccepted).1
  have hactive : env.isDIP0003Active n.chain = true := by
    by_contra hinactive
    rw [Bool.not_eq_true] at hinactive
    rw [coinbase_eq_none hinactive hacceptable.passes] at hcoinbase
    cases hcoinbase
  obtain ⟨old, new, l, hold, hbuilt, hlists⟩ := hn.exists_built haccepted hactive
  exact ⟨old, new, l, hold, hbuilt.build, (hlists after).2, hbuilt.root_iff hfree hcoinbase⟩

end Root

/-! ## A chain with a masternode -/

/-- Hash functions without collisions on numbers of any size. -/
def pairingHashes : MerkleHashes where
  hash := Encodable.encode
  node := pair
  keyBytes
    | _, none => 0
    | _, some point => point

lemma noCollision_pairingHashes : pairingHashes.NoCollision :=
  ⟨Encodable.encode_injective, fun _ _ _ _ heq => pair_eq_pair.mp heq⟩

/-- The main network, without LLMQs. -/
def mainEnv : MnEnv where
  params := mainParams
  mnRewardReallocation _ := false
  getCoin _ _ := none
  llmqs _ _ := none
  getAllQuorumMembers _ _ := []
  sha256 a b := pair a b

def genesisBlock : CBlock := { hash := 0, coinbase := .none, txs := [] }

/-- The block before the activation. -/
def firstBlock : CBlock := { hash := 1, coinbase := .none, txs := [] }

/-- A registration whose collateral is an output of its own. -/
def registration : CTransaction where
  hash := 7
  vin := []
  payload := .proReg <| some
    { collateralOutpoint := ⟨0, 0⟩, addr := ⟨1, 2⟩, keyIDOwner := 1
      pubKeyOperator := .key 1 true, keyIDVoting := 1 }

/-- The masternode it registers at height 2. -/
def registeredMN : CDeterministicMN where
  internalId := 0
  proTxHash := 7
  collateralOutpoint := ⟨7, 0⟩
  nOperatorReward := 0
  nType := .regular
  pdmnState :=
    { nRegisteredHeight := 2, keyIDOwner := 1, pubKeyOperator := .key 1 true, keyIDVoting := 1
      addr := ⟨1, 2⟩ }

/-- The block with the registration. A network has no mature collateral at this height. -/
def secondBlock : CBlock where
  hash := 2
  coinbase := .cbTx
    { nHeight := 2
      merkleRootMNList := (calcMerkleRoot pairingHashes [.ofMN registeredMN]).1 }
  txs := [registration]

theorem merkleRootMNList_iff_secondBlock :
    let n := (start genesisBlock).run mainEnv pairingHashes insertionSorter
      [.connectBlock firstBlock true]
    let n' := n.step mainEnv pairingHashes insertionSorter (.connectBlock secondBlock true)
    pairingHashes.NoCollision ∧ n'.chain = secondBlock :: n.chain ∧
    ∃ old new l, n.listOf mainEnv n.chain = .ok old ∧
      buildNewListFromBlock mainEnv n.chain secondBlock old = .ok new ∧
      (n'.run mainEnv pairingHashes insertionSorter [.restart, .doMaintenance]).listOf mainEnv
        (secondBlock :: n.chain) = .ok l ∧
      ((calcMerkleRoot pairingHashes (.ofList l)).1 =
          (calcMerkleRoot pairingHashes [.ofMN registeredMN]).1 ↔
        new.bansSome insertionSorter (nHeight (secondBlock :: n.chain)) = false) := by
  intro n n'
  have haccepted : n'.chain = secondBlock :: n.chain := by decide +kernel
  exact ⟨noCollision_pairingHashes, haccepted, merkleRootMNList_iff noCollision_pairingHashes
    genesisBlock [.connectBlock firstBlock true] [.restart, .doMaintenance] rfl haccepted⟩

/-- The node after these two blocks. -/
def registeredNode : MnNode :=
  (MnNode.start genesisBlock).run mainEnv pairingHashes insertionSorter
    [.connectBlock firstBlock true, .connectBlock secondBlock true]

lemma chain_registeredNode : registeredNode.chain = [secondBlock, firstBlock, genesisBlock] := by
  decide +kernel

lemma mns_registeredNode :
    (registeredNode.listOf mainEnv registeredNode.chain).toOption.map mns = some [registeredMN] := by
  decide +kernel

/-! ## Extending a chain with one masternode -/

/-- An old masternode, which is not banned before the first ban height. -/
structure Standing (nHeight : Int) (state : CDeterministicMNState) : Prop where
  registered : state.nRegisteredHeight < 271000
  penalty : 0 ≤ state.nPoSePenalty
  notBanned : nHeight < 289000 → state.isBanned = false

/-- The list has one masternode, and it is an old one. -/
def Lone (nHeight : Int) (l : CDeterministicMNList) : Prop :=
  ∃ dmn, l.mns = [dmn] ∧ Standing nHeight dmn.pdmnState

section Lone

variable {l l' : CDeterministicMNList} {nHeight : Int}

/-- A quiet block keeps the masternode. -/
lemma Lone.quiet (hl : l.WellIndexed) (hlone : Lone nHeight l) (hquiet : Quiet l l') :
    Lone nHeight l' := by
  obtain ⟨dmn, hmns, hstanding⟩ := hlone
  have hget : l.getMN dmn.proTxHash = some dmn := hl.mem_mns_iff.mp (by rw [hmns]; simp)
  obtain ⟨dmn', hget', -⟩ := hquiet.sameCores.getMN hget
  have hsteady := hquiet.steady hget hget'
  have hnodup : l'.mns.Nodup := (nodup_mns (hl.congr hquiet.sameCores).proTxHash_eq).of_map _
  have hmns' : l'.mns = [dmn'] := by
    refine perm_singleton.mp ((perm_ext_iff_of_nodup hnodup (nodup_singleton _)).mpr fun d => ?_)
    rw [mem_mns, mem_singleton]
    constructor
    · -- it has the hash of a masternode of the old list
      rintro ⟨h, hd⟩
      obtain ⟨old, hold, -⟩ := hquiet.sameCores.symm.getMN hd
      have hmem := mem_mns.mpr ⟨h, hold⟩
      rw [hmns, mem_singleton] at hmem
      rw [← hl.proTxHash_eq hold, hmem, hget'] at hd
      exact (Option.some.inj hd).symm
    · rintro rfl
      exact ⟨_, hget'⟩
  refine ⟨dmn', hmns', ?_, hsteady.penalty hstanding.penalty, ?_⟩
  · rw [hsteady.registeredHeight]
    exact hstanding.registered
  · rw [CDeterministicMNState.isBanned, hsteady.banHeight]
    exact hstanding.notBanned

/-- A ban takes a lone masternode to the highest penalty. -/
lemma Lone.calcMaxPoSePenalty_le (hlone : Lone nHeight l) :
    ∀ dmn ∈ l.mns, l.calcMaxPoSePenalty ≤ dmn.pdmnState.nPoSePenalty + 1000 := by
  obtain ⟨dmn, hmns, hstanding⟩ := hlone
  have hcount : l.getAllMNsCount = 1 := by
    have hlength := congrArg length hmns
    rwa [mns, length_map, Std.ExtTreeMap.length_toList] at hlength
  have hpenalty := hstanding.penalty
  simp only [hmns, mem_singleton, forall_eq, calcMaxPoSePenalty, hcount]
  omega

/-- The first ban of a lone masternode takes effect. -/
lemma Lone.bansSome (hlone : Lone nHeight l) (hlow : nHeight < 289000) (sorter : RegistrationSort)
    {banHeight : Int} (hban : isBanHeight banHeight = true) :
    l.bansSome sorter banHeight = true := by
  have hmax := hlone.calcMaxPoSePenalty_le
  obtain ⟨dmn, hmns, hstanding⟩ := hlone
  have heligible : l.eligibleMNs = [dmn] := by
    simp [eligibleMNs, hmns, CDeterministicMN.isPoSeBanned, hstanding.notBanned hlow,
      hstanding.registered]
  have hsorted : sorter.sort [dmn] = [dmn] := perm_singleton.mp (sorter.perm [dmn])
  have hpunished : l.punishedMNs sorter banHeight = [dmn] := by
    simp [punishedMNs, heligible, hsorted]
  simpa [CDeterministicMNList.bansSome, hban, hpunished, hmns] using hmax

/-- Neither the bans of a block nor the way its list is stored remove an old masternode. -/
lemma Standing.keptBy {dmn : CDeterministicMN} (h : Standing nHeight dmn.pdmnState)
    {sorter : RegistrationSort} {change : CDeterministicMN → CDeterministicMN}
    (hchange : KeptBy sorter (nHeight + 1) l l' change) :
    Standing (nHeight + 1) (change dmn).pdmnState := by
  have hstays : nHeight + 1 < 289000 → dmn.pdmnState.isBanned = false :=
    fun hlow => h.notBanned (by omega)
  rcases hchange with rfl | ⟨-, rfl⟩
  · unfold afterBans
    split
    · next hban =>
      have hhigh : ¬ nHeight + 1 < 289000 := by
        simp [isBanHeight] at hban
        omega
      have hpenalty : 0 ≤ min l'.calcMaxPoSePenalty (dmn.pdmnState.nPoSePenalty + 1000) :=
        le_min (le_max_of_le_left (by decide)) (Int.add_nonneg h.penalty (by decide))
      unfold punishedState CDeterministicMNState.banIfNotBanned
      dsimp only
      split_ifs <;> exact ⟨h.registered, hpenalty, fun hlow => absurd hlow hhigh⟩
    · exact ⟨h.registered, h.penalty, hstays⟩
  · unfold restoredMN
    split <;> exact ⟨h.registered, h.penalty, hstays⟩

end Lone

section Extend

variable {env : MnEnv} {hashes : MerkleHashes} {n : MnNode}

/-- **A chain with one masternode can be extended** by a block without transactions. -/
theorem exists_connect_empty (sorter : RegistrationSort) (hn : n.Sound hashes)
    (hactive : env.isDIP0003Active n.chain = true) {l : CDeterministicMNList} {height : Int}
    (htip : TipList n.state.evoDb n.chain l) (hlone : Lone height l) :
    ∃ block cbTx new, block.coinbase = .cbTx cbTx ∧
      (n.connectBlock env hashes sorter block true).chain = block :: n.chain ∧
      buildNewListFromBlock env n.chain block l = .ok new ∧ Lone height new := by
  obtain ⟨hash, hfresh⟩ := Infinite.exists_notMem_finset n.seen.toFinset
  rw [mem_toFinset] at hfresh
  -- the list of the block does not depend on what its coinbase commits to
  have hempty : (⟨hash, .none, []⟩ : CBlock).txs = [] := rfl
  obtain ⟨new, hbuild, hquiet⟩ := exists_buildNewListFromBlock env n.chain htip.indexed hempty
  have hnew : Lone height new :=
    Lone.quiet (htip.indexed.stamped 0 (n.chain.nHeight + 1)) hlone hquiet
  -- one leaf is its own root
  obtain ⟨root, hroot⟩ : ∃ root, calcMerkleRoot hashes (.ofList new) = (root, false) := by
    obtain ⟨dmn, hmns, -⟩ := hnew
    simp only [ofList, hmns]
    exact ⟨_, rfl⟩
  have hcheck : checkCoinbase env n.chain (.cbTx ⟨nHeight n.chain + 1, root⟩) = .ok () := by
    simp [checkCoinbase, hactive]
  refine ⟨⟨hash, .cbTx ⟨nHeight n.chain + 1, root⟩, []⟩, _, new, rfl, ?_, hbuild, hnew⟩
  refine hn.connectBlock_of_acceptable ?_ htip ⟨⟨hcheck, by simp⟩, fun _ => ⟨new, hbuild⟩,
    fun _ => ⟨new, hbuild, hroot⟩⟩
  simp [canTry, hfresh]

lemma isDIP0003Active_mainEnv {chain : CBlockIndex} (hheight : 1 ≤ nHeight chain) :
    mainEnv.isDIP0003Active chain = true := by
  have hdip3 : mainEnv.params.dip0003Height = 2 := rfl
  simp only [MnEnv.isDIP0003Active, hdip3, decide_eq_true_eq]
  omega

/-- The masternode stays in the lists of a chain that grows by such blocks. -/
lemma exists_run_lone (k : Nat) :
    ∃ events, let n := (start genesisBlock).run mainEnv pairingHashes insertionSorter events
      n.Sound pairingHashes ∧ nHeight n.chain = k + 2 ∧
        ∃ l, TipList n.state.evoDb n.chain l ∧ Lone (k + 2) l := by
  have hsound := fun events =>
    ((sound_start pairingHashes genesisBlock).run mainEnv insertionSorter events).1
  induction k with
  | zero =>
    refine ⟨[.connectBlock firstBlock true, .connectBlock secondBlock true], hsound _, ?_⟩
    have hn : registeredNode.Sound pairingHashes := hsound _
    obtain ⟨l, htip⟩ := hn.tip
    have hmns := mns_registeredNode
    rw [hn.listOf_eq mainEnv suffix_rfl, htip.listFor] at hmns
    exact ⟨congrArg CBlockIndex.nHeight chain_registeredNode, l, htip, registeredMN,
      Option.some.inj hmns, by decide, le_rfl, fun _ => rfl⟩
  | succ k ih =>
    obtain ⟨events, hn, hheight, l, htip, hlone⟩ := ih
    have hactive := isDIP0003Active_mainEnv (by rw [hheight]; omega)
    obtain ⟨block, cbTx, new, -, haccepted, hbuild, dmn, hmns, hstanding⟩ :=
      exists_connect_empty insertionSorter hn hactive htip hlone
    refine ⟨events ++ [.connectBlock block true], hsound _, ?_⟩
    rw [MnNode.run, foldl_append]
    obtain ⟨l', htip', hbuilt⟩ := (hn.connected haccepted).2.tip
    obtain ⟨old, new', hold, hbuilt⟩ := hbuilt hactive
    cases htip.listFor.symm.trans hold
    cases hbuild.symm.trans hbuilt.build
    obtain ⟨change, hchange, hget⟩ := hbuilt.list
    rw [nHeight_cons, hheight] at hchange
    have hnext : ((k + 1 : Nat) : Int) + 2 = k + 2 + 1 := by omega
    rw [hnext]
    refine ⟨(congrArg CBlockIndex.nHeight haccepted).trans ?_, l', haccepted ▸ htip', change dmn, ?_,
      hstanding.keptBy hchange⟩
    · rw [nHeight_cons, hheight]
    · rw [mns_map hget, hmns]
      rfl

/-- At any height the list built for a block can have the one masternode. -/
lemma exists_connected_lone (k : Nat) : ∃ events block cbTx,
    let n := (start genesisBlock).run mainEnv pairingHashes insertionSorter events
    n.Sound pairingHashes ∧ mainEnv.isDIP0003Active n.chain = true ∧
      nHeight (block :: n.chain) = k + 3 ∧ block.coinbase = .cbTx cbTx ∧
      (n.step mainEnv pairingHashes insertionSorter (.connectBlock block true)).chain =
        block :: n.chain ∧
      ∀ {old new}, n.listOf mainEnv n.chain = .ok old →
        buildNewListFromBlock mainEnv n.chain block old = .ok new → Lone (k + 2) new := by
  obtain ⟨events, hn, hheight, l, htip, hlone⟩ := exists_run_lone k
  have hactive := isDIP0003Active_mainEnv (by rw [hheight]; omega)
  obtain ⟨block, cbTx, new, hcoinbase, haccepted, hbuild, hnew⟩ := exists_connect_empty
    insertionSorter hn hactive htip hlone
  refine ⟨events, block, cbTx, hn, hactive, ?_, hcoinbase, haccepted, fun hold hnew' => ?_⟩
  · rw [nHeight_cons, hheight]
    ring
  · rw [hn.listOf_eq mainEnv suffix_rfl, htip.listFor] at hold
    cases hold
    cases hbuild.symm.trans hnew'
    exact hnew

/-- At height 289000 the only masternode, registered at height 2, is banned: the list the
node returns for the block is not the one its coinbase commits to. -/
theorem merkleRootMNList_differs :
    ∃ events block cbTx l,
      let n := (start genesisBlock).run mainEnv pairingHashes insertionSorter events
      let n' := n.step mainEnv pairingHashes insertionSorter (.connectBlock block true)
      block.coinbase = .cbTx cbTx ∧ n'.chain = block :: n.chain ∧
        nHeight n'.chain = 289000 ∧ n'.listOf mainEnv n'.chain = .ok l ∧
        (calcMerkleRoot pairingHashes (.ofList l)).1 ≠ cbTx.merkleRootMNList := by
  obtain ⟨events, block, cbTx, hn, hactive, hheight, hcoinbase, haccepted, hlone⟩ :=
    exists_connected_lone 288997
  obtain ⟨old, new, l, hold, hbuilt, hlists⟩ := hn.exists_built haccepted hactive
  refine ⟨events, block, cbTx, l, hcoinbase, haccepted, ?_, ?_, fun heq => ?_⟩
  · exact (congrArg CBlockIndex.nHeight haccepted).trans hheight
  · exact (congrArg _ haccepted).trans (hlists []).2
  · have hfalse := (hbuilt.root_iff noCollision_pairingHashes hcoinbase).mp heq
    rw [(hlone hold hbuilt.build).bansSome (by decide) insertionSorter (by rw [hheight]; rfl)]
      at hfalse
    cases hfalse

end Extend

end HootChain.Evo

import HootChain.Evo.MnManager

/-!
# Special Transactions of a Block (`evo/specialtxman.cpp`, `evo/cbtx.cpp`)

A block is processed in three parts. Its special transactions are checked against the
list of the parent. `ProcessBlock` builds the list of the block, punishes old
masternodes at the ban heights, and writes list and diff. Then the coinbase has to
commit to the merkle root of the simplified list, which is built once more from the
parent's list; the last root is kept in static variables.
-/

namespace HootChain.Evo

open Primitives Foundation Function CDeterministicMNList CDeterministicMN List CBlockIndex EvoState
open Prog

/-! ## `ProcessBlock` -/

section Process

variable (env : MnEnv) (hashes : MerkleHashes) (sorter : RegistrationSort)

/-- A handler for `std::exception`. -/
def caught (reason : String) : MnFailure → MnFailure
  | .runtimeError _ => .invalid reason
  | e => e

section

variable (block : CBlock) (pprev : CBlockIndex)

/-- `BuildNewListFromBlock` with its lookup of the old list. -/
def buildFromStored (pindexPrev : CBlockIndex) : MnM CDeterministicMNList := do
  let oldList ← getListForBlock env pindexPrev
  lift (buildNewListFromBlock env pindexPrev block oldList)

/-- The writes of `ProcessBlock`. A list punished at a ban height is always written. -/
def store (diff : CDeterministicMNListDiff) (newList : CDeterministicMNList) (s : EvoState) :
    EvoState :=
  let nHeight := nHeight (block :: pprev)
  let periodic := nHeight.tmod 576 = 0 ∨ s.initialSnapshotIndex = some pprev
  { s with
    evoDb :=
      { diffs := update s.evoDb.diffs block.hash (some diff)
        snapshots :=
          if isBanHeight nHeight ∨ periodic then
            update s.evoDb.snapshots block.hash (some newList)
          else s.evoDb.snapshots }
    mnListsCache :=
      if periodic then emplace s.mnListsCache block.hash newList else s.mnListsCache
    mnListDiffsCache := emplace s.mnListDiffsCache block.hash { diff with nHeight := nHeight } }

/-- The part of `ProcessBlock` after the check. The diff does not contain the bans. -/
def storeNewList (newList : CDeterministicMNList) : MnM Unit := do
  let newList := { newList with blockHash := block.hash }
  let oldList ← getListForBlockInternal env pprev
  let diff := oldList.buildDiff newList
  let newList ← lift (newList.banOldNodes sorter (nHeight (block :: pprev)))
  modify (store block pprev diff newList)

def processBlock (fJustCheck : Bool) : MnM Unit :=
  if ¬ env.isDIP0003Active pprev then
    pure ()
  else do
    let newList ← rescue (caught "failed-dmn-block") (buildFromStored env block pprev)
    if fJustCheck then
      pure ()
    else do
      rescue (caught "failed-dmn-block") (storeNewList env sorter block pprev newList)
      modify fun s => { s with
        toCleanup := max s.toCleanup (nHeight (block :: pprev)) }

/-! ## The root in the coinbase -/

/-- The comparison with the cached list, and the root. -/
def cachedMerkleRoot (sml : CSimplifiedMNList) : MnM Uint256 := do
  let s ← get
  if sml.same s.smlCached then
    if s.mutatedCached then throw (.invalid "mutated-cached-calc-cb-mnmerkleroot")
    else pure s.merkleRootCached
  else do
    let root := sml.calcMerkleRoot hashes
    set { s with smlCached := sml, merkleRootCached := root.1, mutatedCached := root.2 }
    if root.2 then throw (.invalid "mutated-calc-cb-mnmerkleroot") else pure root.1

def calcCbTxMerkleRootMNList (pindexPrev : CBlockIndex) : MnM Uint256 :=
  rescue (caught "failed-calc-cb-mnmerkleroot") do
    let tmpMNList ← buildFromStored env block pindexPrev
    cachedMerkleRoot hashes (.ofList tmpMNList)

/-- `CheckCbTxMerkleRoots`, up to the check of the quorums. -/
def checkCbTxMerkleRoots : MnM Unit :=
  match block.coinbase with
  | .none => pure ()
  | .undecodable => throw (.invalid "bad-cbtx-payload")
  | .cbTx cbTx => do
    let calculatedMerkleRoot ← calcCbTxMerkleRootMNList env hashes block pprev
    if calculatedMerkleRoot ≠ cbTx.merkleRootMNList then
      throw (.invalid "bad-cbtx-mnmerkleroot")
    else pure ()

/-! ## `ProcessSpecialTxsInBlock` -/

/-- `CheckSpecialTxInner` with its lookup of the list. -/
def checkSpecialTxInner (pindexPrev : CBlockIndex) (tx : CTransaction) : MnM Unit :=
  rescue (caught "failed-check-special-tx") do
    let mnList ← getListForBlock env pindexPrev
    lift (checkSpecialTx env pindexPrev mnList tx)

/-- The loop of `ProcessSpecialTxsInBlock`, which starts with the coinbase. -/
def checkSpecialTxs : MnM Unit := do
  lift (checkCoinbase env pprev block.coinbase)
  block.txs.forM (checkSpecialTxInner env pprev)

/-- `ProcessSpecialTxsInBlock`, without the checks of the other subsystems. -/
def processSpecialTxsInBlock (fJustCheck fCheckCbTxMerkleRoots : Bool) : MnM Unit :=
  rescue (caught "failed-procspectxsinblock") do
    checkSpecialTxs env block pprev
    processBlock env sorter block pprev fJustCheck
    if fCheckCbTxMerkleRoots then checkCbTxMerkleRoots env hashes block pprev else pure ()

end

end Process

/-! ## The parts that only read -/

section Reading

variable {env : MnEnv} {hashes : MerkleHashes} {chain pprev : CBlockIndex} {seen : List Uint256}
  {s : EvoState} {block : CBlock}

/-- The list of the block by the database, before the bans. -/
def MnDb.newListFor (db : MnDb) (env : MnEnv) (block : CBlock) (pprev : CBlockIndex) : ListResult :=
  db.listFor pprev >>= buildNewListFromBlock env pprev block

lemma reads_buildFromStored (env : MnEnv) (block : CBlock) (hsuffix : pprev <:+ chain) :
    Reads (Coherent hashes chain seen) evoDb (buildFromStored env block pprev)
      fun db => db.newListFor env block pprev :=
  (reads_getListForBlockInternal env hsuffix).bind fun _ => Reads.lift _

lemma reads_checkSpecialTxs (env : MnEnv) (block : CBlock) (hsuffix : pprev <:+ chain) :
    Reads (Coherent hashes chain seen) evoDb (checkSpecialTxs env block pprev)
      fun db => checkCoinbase env pprev block.coinbase >>= fun _ =>
        block.txs.forM fun tx => (db.listFor pprev >>= fun mnList =>
          checkSpecialTx env pprev mnList tx).mapError (caught "failed-check-special-tx") :=
  (Reads.lift _).bind fun _ => Reads.forM fun _ _ =>
    ((reads_getListForBlockInternal env hsuffix).bind fun _ => Reads.lift _).rescue _

/-- The checks of a block against the list of its parent. -/
def Passes (env : MnEnv) (block : CBlock) (pprev : CBlockIndex) (old : CDeterministicMNList) :
    Prop :=
  checkCoinbase env pprev block.coinbase = .ok () ∧
    ∀ tx ∈ block.txs, checkSpecialTx env pprev old tx = .ok ()

variable (hs : Coherent hashes chain seen s)

include hs

variable (env block) in
lemma exists_runs_checkSpecialTxs
    {old : CDeterministicMNList} (hlist : s.evoDb.listFor chain = .ok old) :
    ∃ result s₁, runs (checkSpecialTxs env block chain) s = (result, s₁) ∧
      Coherent hashes chain seen s₁ ∧ s₁.evoDb = s.evoDb ∧
      (result = .ok () ↔ Passes env block chain old) := by
  obtain ⟨s₁, hrun, hs₁, hdb⟩ := (reads_checkSpecialTxs env block suffix_rfl).exists_runs hs
  refine ⟨_, s₁, hrun, hs₁, hdb, ?_⟩
  rw [bind_eq_ok, Passes]
  simp only [forM_eq_ok, mapError_eq_ok, hlist]
  exact ⟨fun ⟨(), hcoinbase, htxs⟩ => ⟨hcoinbase, htxs⟩,
    fun ⟨hcoinbase, htxs⟩ => ⟨(), hcoinbase, htxs⟩⟩

/-- Comparing with the cached list changes nothing but the static variables, and the
root is that of the list. -/
lemma cachedMerkleRoot_spec (sml : CSimplifiedMNList) :
    Coherent hashes chain seen (runs (cachedMerkleRoot hashes sml) s).2 ∧
    (runs (cachedMerkleRoot hashes sml) s).2.evoDb = s.evoDb ∧
    ∀ root, (runs (cachedMerkleRoot hashes sml) s).1 = .ok root ↔
      sml.calcMerkleRoot hashes = (root, false) := by
  unfold cachedMerkleRoot
  rw [runs_bind_of_ok (runs_get s)]
  by_cases hsame : sml.same s.smlCached = true
  · rw [if_pos hsame, CSimplifiedMNList.calcMerkleRoot_eq_of_same hashes hsame, hs.root]
    cases s.mutatedCached <;> exact ⟨hs, rfl, by simp⟩
  · rw [if_neg hsame]
    rw [runs_bind_of_ok (runs_set ..)]
    have hs' : Coherent hashes chain seen { s with
        smlCached := sml, merkleRootCached := (sml.calcMerkleRoot hashes).1
        mutatedCached := (sml.calcMerkleRoot hashes).2 } :=
      ⟨hs.nodup, hs.subset, hs.lists, hs.diffs, hs.stamped, hs.confined, rfl⟩
    cases hroot : sml.calcMerkleRoot hashes with
    | mk root mutated =>
      simp only [hroot] at hs'
      cases mutated <;> exact ⟨hs', rfl, by simp⟩

variable (env block) in
/-- **The root of the block.** `CalcCbTxMerkleRootMNList` succeeds with the root of the
list before the bans. -/
theorem calcCbTxMerkleRootMNList_spec
    (hsuffix : pprev <:+ chain) :
    Coherent hashes chain seen (runs (calcCbTxMerkleRootMNList env hashes block pprev) s).2 ∧
    (runs (calcCbTxMerkleRootMNList env hashes block pprev) s).2.evoDb = s.evoDb ∧
    ∀ root, (runs (calcCbTxMerkleRootMNList env hashes block pprev) s).1 = .ok root ↔
      ∃ newList, s.evoDb.newListFor env block pprev = .ok newList ∧
        CSimplifiedMNList.calcMerkleRoot hashes (.ofList newList) = (root, false) := by
  have hreads : Reads (Coherent hashes chain seen) evoDb
      (buildFromStored env block pprev) _ := reads_buildFromStored env block hsuffix
  have hresult := hreads.result hs
  have hinv := hreads.inv hs
  have hview := hreads.view hs
  unfold calcCbTxMerkleRootMNList
  rw [runs_rescue]
  simp only [mapError_eq_ok]
  rw [runs_bind, ← hresult]
  cases hbuild : runs (buildFromStored env block pprev) s with
  | mk result s' =>
    rw [hbuild] at hinv hview
    cases result with
    | error e => exact ⟨hinv, hview, by simp⟩
    | ok newList =>
      have hspec := cachedMerkleRoot_spec hinv (.ofList newList)
      refine ⟨hspec.1, hspec.2.1.trans hview, fun root => ?_⟩
      simp [hspec.2.2 root]

/-- What `CheckCbTxMerkleRoots` asks of the coinbase. -/
def Commits (hashes : MerkleHashes) (coinbase : CoinbasePayload)
    (newList : ListResult) : Prop :=
  match coinbase with
  | .none => True
  | .undecodable => False
  | .cbTx cbTx => ∃ l, newList = .ok l ∧
      CSimplifiedMNList.calcMerkleRoot hashes (.ofList l) = (cbTx.merkleRootMNList, false)

variable (env block) in
lemma checkCbTxMerkleRoots_spec (hsuffix : pprev <:+ chain) :
    Coherent hashes chain seen (runs (checkCbTxMerkleRoots env hashes block pprev) s).2 ∧
    (runs (checkCbTxMerkleRoots env hashes block pprev) s).2.evoDb = s.evoDb ∧
    ((runs (checkCbTxMerkleRoots env hashes block pprev) s).1 = .ok () ↔
      Commits hashes block.coinbase (s.evoDb.newListFor env block pprev)) := by
  unfold checkCbTxMerkleRoots Commits
  cases block.coinbase with
  | none | undecodable => exact ⟨hs, rfl, by simp⟩
  | cbTx cbTx =>
    have hspec := calcCbTxMerkleRootMNList_spec env block hs hsuffix
    dsimp only
    rw [runs_bind]
    cases hcalc : runs (calcCbTxMerkleRootMNList env hashes block pprev) s with
    | mk result s' =>
      simp only [hcalc] at hspec
      cases result with
      | error e =>
        refine ⟨hspec.1, hspec.2.1, ?_⟩
        rw [← hspec.2.2]
        simp
      | ok root =>
        by_cases hroot : root ≠ cbTx.merkleRootMNList
        · dsimp only
          rw [if_pos hroot]
          refine ⟨hspec.1, hspec.2.1, ?_⟩
          rw [← hspec.2.2]
          simpa using hroot
        · dsimp only
          rw [if_neg hroot]
          refine ⟨hspec.1, hspec.2.1, ?_⟩
          rw [← hspec.2.2]
          simpa using hroot

end Reading

/-! ## The writes -/

section Writing

variable {env : MnEnv} {hashes : MerkleHashes} {sorter : RegistrationSort}
  {chain pindex : CBlockIndex} {seen : List Uint256} {s : EvoState} {block : CBlock}
  {diff : CDeterministicMNListDiff} {newList : CDeterministicMNList}

/-- Lists of blocks that do not descend from the new one stay. -/
lemma listFor_store (hfresh : block.hash ∉ pindex.map CBlock.hash) :
    (store block chain diff newList s).evoDb.listFor pindex = s.evoDb.listFor pindex := by
  induction pindex with
  | nil => rfl
  | cons top rest ih =>
    rw [map_cons, mem_cons, not_or] at hfresh
    have hne : top.hash ≠ block.hash := fun heq => hfresh.1 heq.symm
    have hsnapshots : (store block chain diff newList s).evoDb.snapshots top.hash =
        s.evoDb.snapshots top.hash := by
      unfold store
      dsimp only
      split
      · exact update_of_ne hne ..
      · rfl
    have hdiffs : (store block chain diff newList s).evoDb.diffs top.hash =
        s.evoDb.diffs top.hash := update_of_ne hne ..
    simp [MnDb.listFor, hsnapshots, hdiffs, ih hfresh.2]

lemma Coherent.hash_notMem (hs : Coherent hashes chain seen s) (hfresh : block.hash ∉ seen)
    (hsuffix : pindex <:+ chain) : block.hash ∉ pindex.map CBlock.hash := by
  intro hmem
  obtain ⟨top, htop, heq⟩ := mem_map.mp hmem
  exact hfresh (heq ▸ hs.subset top (hsuffix.subset htop))

variable {l : CDeterministicMNList}

section

variable (hs : Coherent hashes chain seen s) (hfresh : block.hash ∉ seen)

include hs hfresh

/-- The snapshot of the new block, where there is one. -/
lemma snapshots_store
    (hsnapshot : (store block chain diff newList s).evoDb.snapshots block.hash = some l) :
    l = newList := by
  unfold store at hsnapshot
  dsimp only at hsnapshot
  split at hsnapshot
  · rw [update_self] at hsnapshot
    cases hsnapshot
    rfl
  · rw [(hs.confined hfresh).2.2.1] at hsnapshot
    cases hsnapshot

/-- A list that `ProcessBlock` caches is also in the database. -/
lemma listFor_of_cached_store
    (hcached : (store block chain diff newList s).mnListsCache block.hash = some l) :
    (store block chain diff newList s).evoDb.listFor (block :: chain) = .ok l := by
  have hnone := (hs.confined hfresh).1
  unfold store at hcached ⊢
  dsimp only at hcached
  split at hcached
  · next hperiodic =>
    rw [emplace_self hnone] at hcached
    cases hcached
    simp [MnDb.listFor, hperiodic]
  · rw [hnone] at hcached
    cases hcached

/-- **The writes** of `ProcessBlock` extend the agreement to the new block. -/
theorem Coherent.store (hstamp : newList.stamp = (block.hash, nHeight (block :: chain))) :
    Coherent hashes (block :: chain) (block.hash :: seen) (store block chain diff newList s) := by
  -- the hash is new, so that nothing about an older block is overwritten
  have hne : ∀ {top rest}, top :: rest <:+ chain → top.hash ≠ block.hash :=
    fun hsuffix heq => hfresh (heq ▸ hs.hash_mem hsuffix)
  have hlistFor : ∀ {top rest}, top :: rest <:+ chain →
      (Evo.store block chain diff newList s).evoDb.listFor (top :: rest) =
        s.evoDb.listFor (top :: rest) :=
    fun hsuffix => listFor_store (hs.hash_notMem hfresh hsuffix)
  refine ⟨?_, ?_, ?_, ?_, ?_, ?_, hs.root⟩
  · rw [map_cons, nodup_cons]
    exact ⟨hs.hash_notMem hfresh suffix_rfl, hs.nodup⟩
  · intro top htop
    rcases mem_cons.mp htop with rfl | htop
    · exact mem_cons_self ..
    · exact mem_cons_of_mem _ (hs.subset top htop)
  · intro top rest l hsuffix hcached
    rcases suffix_cons_iff.mp hsuffix with heq | hsuffix
    · cases heq
      exact listFor_of_cached_store hs hfresh hcached
    · rw [hlistFor hsuffix]
      apply hs.lists hsuffix
      unfold Evo.store at hcached
      dsimp only at hcached
      split at hcached
      · rwa [emplace_of_ne _ (hne hsuffix)] at hcached
      · exact hcached
  · intro top rest cached hsuffix hcached
    rcases suffix_cons_iff.mp hsuffix with heq | hsuffix
    · cases heq
      have hself := emplace_self (hs.confined hfresh).2.1
        { diff with nHeight := nHeight (block :: chain) }
      cases hself.symm.trans hcached
      exact ⟨diff, update_self .., rfl⟩
    · have hold := (emplace_of_ne _ (hne hsuffix) _).symm.trans hcached
      obtain ⟨stored, hstored, heq⟩ := hs.diffs hsuffix hold
      exact ⟨stored, (update_of_ne (hne hsuffix) ..).trans hstored, heq⟩
  · intro top rest l hsuffix hsnapshot
    rcases suffix_cons_iff.mp hsuffix with heq | hsuffix
    · cases heq
      rw [snapshots_store hs hfresh hsnapshot]
      exact hstamp
    · apply hs.stamped hsuffix
      unfold Evo.store at hsnapshot
      dsimp only at hsnapshot
      split at hsnapshot
      · rwa [update_of_ne (hne hsuffix)] at hsnapshot
      · exact hsnapshot
  · intro h hseen
    rw [mem_cons, not_or] at hseen
    obtain ⟨hlists, hdiffs, hsnapshots, hstored⟩ := hs.confined hseen.2
    unfold Evo.store
    dsimp only
    refine ⟨?_, (emplace_of_ne _ hseen.1 _).trans hdiffs, ?_,
      (update_of_ne hseen.1 ..).trans hstored⟩
    · split
      · exact (emplace_of_ne _ hseen.1 _).trans hlists
      · exact hlists
    · split
      · exact (update_of_ne hseen.1 ..).trans hsnapshots
      · exact hsnapshots

omit hfresh in
lemma Coherent.see (h : Uint256) : Coherent hashes chain (h :: seen) s :=
  ⟨hs.nodup, fun block hmem => mem_cons_of_mem _ (hs.subset block hmem), hs.lists, hs.diffs,
    hs.stamped, fun hseen => hs.confined fun hmem => hseen (mem_cons_of_mem _ hmem), hs.root⟩

/-- When the block is rejected after all, the database is rolled back and the caches are
not. They still agree on the blocks of the chain. -/
lemma Coherent.rollback
    {s' : EvoState} (hs' : Coherent hashes (block :: chain) (block.hash :: seen) s')
    (hdb : s'.evoDb = (Evo.store block chain diff newList s).evoDb) :
    Coherent hashes chain (block.hash :: seen) { s' with evoDb := s.evoDb } := by
  refine ⟨hs.nodup, (hs.see block.hash).subset, ?_, ?_, hs.stamped, ?_, hs'.root⟩
  · intro top rest l hsuffix hcached
    have hsame : (Evo.store block chain diff newList s).evoDb.listFor (top :: rest) =
        s.evoDb.listFor (top :: rest) := listFor_store (hs.hash_notMem hfresh hsuffix)
    rw [← hs'.lists (hsuffix.trans (suffix_cons ..)) hcached, hdb]
    exact hsame.symm
  · intro top rest cached hsuffix hcached
    have hne : top.hash ≠ block.hash := fun heq => hfresh (heq ▸ hs.hash_mem hsuffix)
    obtain ⟨stored, hstored, heq⟩ := hs'.diffs (hsuffix.trans (suffix_cons ..)) hcached
    rw [hdb] at hstored
    exact ⟨stored, (update_of_ne hne ..).symm.trans hstored, heq⟩
  · intro h hseen
    obtain ⟨hlists, hdiffs, -⟩ := hs'.confined hseen
    exact ⟨hlists, hdiffs, ((hs.see block.hash).confined hseen).2.2⟩

end

/-! ## The list of the new block -/

/-- A diff without changes is applied like any other. -/
lemma CDeterministicMNList.replay_eq_applyDiff (l : CDeterministicMNList) (diffIndex : CBlockIndex)
    (diff : CDeterministicMNListDiff) : l.replay diffIndex diff =
      l.applyDiff (CBlockIndex.getBlockHash diffIndex) (CBlockIndex.nHeight diffIndex) diff := by
  unfold replay
  split
  · rfl
  · next hnone =>
    simp only [CDeterministicMNListDiff.hasChanges, Bool.or_eq_true, Bool.not_eq_true',
      isEmpty_eq_false_iff, not_or, not_not] at hnone
    simp only [applyDiff, hnone, foldlM_nil]
    rfl

/-- What the list kept for a block makes of the masternodes of the new list: it bans them, or,
where it comes from its diff and no one is banned, it has them as the diff gives them. -/
def KeptBy (sorter : RegistrationSort) (nHeight : Int) (old new : CDeterministicMNList)
    (change : CDeterministicMN → CDeterministicMN) : Prop :=
  change = new.afterBans sorter nHeight ∨ (isBanHeight nHeight = false ∧ change = old.restoredMN)

section

variable {nHeight : Int} {old new l : CDeterministicMNList} {dmn : CDeterministicMN}
  {change : CDeterministicMN → CDeterministicMN} (hchange : KeptBy sorter nHeight old new change)

include hchange

lemma KeptBy.exists_withState : ∃ state, change dmn = dmn.withState state := by
  rcases hchange with rfl | ⟨-, rfl⟩
  · unfold afterBans
    split <;> exact ⟨_, rfl⟩
  · unfold restoredMN
    split <;> exact ⟨_, rfl⟩

lemma KeptBy.mem_properties {p : UniqueProperty} (hp : p ∈ (change dmn).properties) :
    p ∈ dmn.properties ∨ old.Holds dmn.proTxHash p := by
  rcases hchange with rfl | ⟨-, rfl⟩
  · unfold afterBans at hp
    split at hp
    · have hkeys := sameKeys_punishedState new.calcMaxPoSePenalty new.nHeight 1000 dmn.pdmnState
      exact .inl (properties_eq_of_core (core_withState hkeys) ▸ hp)
    · exact .inl hp
  · exact mem_properties_restoredMN hp

/-- The list kept for a block can be taken back to that of its parent, if the new list can. -/
lemma KeptBy.follows (hold : old.WellIndexed) (hnew : new.WellIndexed) (hback : Follows new old)
    (hget : ∀ k, l.getMN k = (new.getMN k).map change) : Follows l old := by
  refine ⟨fun {h dmn dmn'} hdmn hdmn' => ?_, fun {h h' p} hp hp' => ?_⟩
  · rw [hget, Option.map_eq_some_iff] at hdmn
    obtain ⟨mn, hmn, rfl⟩ := hdmn
    obtain ⟨state, hstate⟩ : ∃ state, change mn = mn.withState state := hchange.exists_withState
    rw [hback.same hmn hdmn', hstate]
    rfl
  · obtain ⟨dmn, hdmn, hmem⟩ := hp'
    rw [hget, Option.map_eq_some_iff] at hdmn
    obtain ⟨mn, hmn, rfl⟩ := hdmn
    rcases hchange.mem_properties hmem with hmem | hheld
    · exact hback.kept hp (holds_of_mem hmn hmem)
    · rw [hnew.proTxHash_eq hmn] at hheld
      exact .inl (hold.properties.owner_unique hheld hp)

end

variable {old new banned : CDeterministicMNList}

/-- **The list of the new block** by the database: that of `BuildNewListFromBlock` after the
bans, from the snapshot or by the diff. -/
theorem exists_listFor_store (hfresh : block.hash ∉ seen) (hs : Coherent hashes chain seen s)
    (hold : old.WellIndexed)
    (hlist : s.evoDb.listFor chain = .ok old) (hnew : new.WellIndexed)
    (hfollows : Follows old new)
    (hban : new.banOldNodes sorter (nHeight (block :: chain)) = .ok banned) :
    ∃ l, (store block chain (old.buildDiff new) banned s).evoDb.listFor (block :: chain) = .ok l ∧
      l.WellIndexed ∧ ∃ change, KeptBy sorter (nHeight (block :: chain)) old new change ∧
        ∀ k, l.getMN k = (new.getMN k).map change := by
  obtain ⟨l, hrun, hpunishing, hget⟩ := exists_banOldNodes sorter (nHeight (block :: chain)) hnew
  cases hban.symm.trans hrun
  cases hsnapshot :
      (store block chain (old.buildDiff new) banned s).evoDb.snapshots block.hash with
  | some l =>
    rw [snapshots_store hs hfresh hsnapshot] at hsnapshot
    refine ⟨banned, ?_, hnew.congr hpunishing.sameCores, _, .inl rfl, hget⟩
    simp [MnDb.listFor, hsnapshot]
  | none =>
    -- no snapshot: not a ban height, and the diff leads to the new list
    have hnot : isBanHeight (nHeight (block :: chain)) = false := by
      by_contra hyes
      rw [Bool.not_eq_false] at hyes
      simp [store, hyes] at hsnapshot
    obtain ⟨l, hreplay, hl, hgetl⟩ := applyDiff_buildDiff hold hnew hfollows
      block.hash (nHeight (block :: chain))
    refine ⟨l, ?_, hl, _, .inr ⟨hnot, rfl⟩, hgetl⟩
    have hdiffs : (store block chain (old.buildDiff new) banned s).evoDb.diffs block.hash =
        some (old.buildDiff new) := update_self ..
    simp only [MnDb.listFor, hsnapshot, hdiffs]
    rw [listFor_store (hs.hash_notMem hfresh suffix_rfl), hlist]
    exact (replay_eq_applyDiff ..).trans hreplay

/-! ## Runs of `ProcessBlock` -/

section

variable (hs : Coherent hashes chain seen s)

include hs

section

variable (hlist : s.evoDb.listFor chain = .ok old) (hban : banOldNodes sorter
  (nHeight (block :: chain)) { new with blockHash := block.hash } = .ok banned)

include hlist hban

variable (env) in
lemma exists_runs_storeNewList :
    ∃ s₁, Coherent hashes chain seen s₁ ∧ s₁.evoDb = s.evoDb ∧
      runs (storeNewList env sorter block chain new) s =
        (.ok (), store block chain (old.buildDiff { new with blockHash := block.hash })
          banned s₁) := by
  obtain ⟨s₁, hrun, hs₁, hdb⟩ := (reads_getListForBlockInternal env suffix_rfl).exists_runs hs
  rw [hlist] at hrun
  refine ⟨s₁, hs₁, hdb, ?_⟩
  unfold storeNewList
  dsimp only
  rw [runs_bind_of_ok hrun, hban, runs_bind_of_ok (runs_lift _ s₁), runs_modify]

/-- The state after `ProcessBlock` has gone through. -/
lemma exists_runs_processBlock (hactive : env.isDIP0003Active chain = true)
    (hbuild : buildNewListFromBlock env chain block old = .ok new) :
    ∃ s₁, Coherent hashes chain seen s₁ ∧ s₁.evoDb = s.evoDb ∧
      runs (processBlock env sorter block chain false) s = (.ok (),
        { store block chain (old.buildDiff { new with blockHash := block.hash }) banned s₁ with
          toCleanup := max s₁.toCleanup (nHeight (block :: chain)) }) := by
  obtain ⟨s₁, hrun, hs₁, hdb₁⟩ := ((reads_buildFromStored env block suffix_rfl).rescue
    (caught "failed-dmn-block")).exists_runs hs
  have hnew : s.evoDb.newListFor env block chain = .ok new := by
    rw [MnDb.newListFor, hlist]
    exact hbuild
  rw [hnew] at hrun
  obtain ⟨s₂, hs₂, hdb₂, hstore⟩ := exists_runs_storeNewList env hs₁ (hdb₁ ▸ hlist) hban
  refine ⟨s₂, hs₂, hdb₂.trans hdb₁, ?_⟩
  unfold processBlock
  rw [if_neg (by simp [hactive]), runs_bind_of_ok hrun, if_neg Bool.false_ne_true]
  rw [runs_bind_of_ok (runs_rescue_of_ok hstore _)]
  rfl

end

/-- `ProcessBlock` with a list that cannot be built, and with a block that is only checked:
nothing is written. -/
lemma runs_processBlock_of_error (hactive : env.isDIP0003Active chain = true) {e : MnFailure}
    (hbuild : s.evoDb.newListFor env block chain = .error e) (fJustCheck : Bool) :
    ∃ s₁, Coherent hashes chain seen s₁ ∧ s₁.evoDb = s.evoDb ∧
      runs (processBlock env sorter block chain fJustCheck) s =
        (.error (caught "failed-dmn-block" e), s₁) := by
  obtain ⟨s₁, hrun, hs₁, hdb₁⟩ := ((reads_buildFromStored env block suffix_rfl).rescue
    (caught "failed-dmn-block")).exists_runs hs
  rw [hbuild] at hrun
  refine ⟨s₁, hs₁, hdb₁, ?_⟩
  unfold processBlock
  rw [if_neg (by simp [hactive]), runs_bind_of_error hrun]

end

lemma reads_processBlock_justCheck :
    Reads (Coherent hashes chain seen) evoDb (processBlock env sorter block chain true)
      fun db => if ¬ env.isDIP0003Active chain then .ok ()
        else ((db.newListFor env block chain).mapError (caught "failed-dmn-block")) >>=
          fun _ => .ok () := by
  unfold processBlock
  split
  · exact Reads.lift (.ok ())
  · exact ((reads_buildFromStored env block suffix_rfl).rescue _).bind fun _ => Reads.lift (.ok ())

end Writing

end HootChain.Evo

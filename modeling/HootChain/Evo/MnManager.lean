import HootChain.Evo.OldNodeBans
import HootChain.Foundation.CachedReads

/-!
# The Masternode List Manager (`CDeterministicMNManager`)

The database holds a snapshot of the list for some blocks and a diff to the list of
the parent for the others. A lookup walks back to the nearest snapshot and replays the
diffs from there. Two caches, which any lookup may fill and a cleanup may empty at any
time, stand before the database. Lists and diffs are read as they were written.

`MnDb.listFor` is what the database alone says about a block. As long as the caches
agree with it on the blocks of the chain, lookups return just that.
-/

namespace HootChain.Evo

open Primitives Foundation Llmq List CBlockIndex Option

/-! ## Database and caches -/

/-- The tables `DB_LIST_SNAPSHOT` and `DB_LIST_DIFF`. -/
structure MnDb where
  snapshots : Uint256 → Option CDeterministicMNList
  diffs : Uint256 → Option CDeterministicMNListDiff

/-- The members of `CDeterministicMNManager` with its tables of the database, and the
static variables of `CalcCbTxMerkleRootMNList`. -/
structure EvoState where
  evoDb : MnDb
  mnListsCache : Uint256 → Option CDeterministicMNList := fun _ => none
  mnListDiffsCache : Uint256 → Option CDeterministicMNListDiff := fun _ => none
  tipIndex : Option CBlockIndex := none
  initialSnapshotIndex : Option CBlockIndex := none
  toCleanup : Int := 0
  didCleanup : Int := 0
  smlCached : CSimplifiedMNList := []
  merkleRootCached : Uint256 := 0
  mutatedCached : Bool := false

/-- The functions of the manager. -/
abbrev MnM (α : Type) := Prog MnFailure EvoState α

/-- `emplace`, which leaves an entry that is there alone. -/
def emplace {β : Type} (table : Uint256 → Option β) (key : Uint256) (value : β) :
    Uint256 → Option β :=
  fun k => if k = key then (table k).or (some value) else table k

namespace EvoState

/-- A state without caches, as after a start of the node. -/
def ofDb (evoDb : MnDb) : EvoState := { evoDb := evoDb }

/-- `mnListsCache.emplace`. -/
def cacheList (s : EvoState) (blockHash : Uint256) (l : CDeterministicMNList) : EvoState :=
  { s with mnListsCache := emplace s.mnListsCache blockHash l }

/-- `mnListDiffsCache.emplace`. -/
def cacheDiff (s : EvoState) (blockHash : Uint256) (diff : CDeterministicMNListDiff) : EvoState :=
  { s with mnListDiffsCache := emplace s.mnListDiffsCache blockHash diff }

end EvoState

/-! ## Lookups -/

/-- The list of a block from the list of its parent and the diff. -/
def CDeterministicMNList.replay (l : CDeterministicMNList) (diffIndex : CBlockIndex)
    (diff : CDeterministicMNListDiff) : ListResult :=
  let blockHash := getBlockHash diffIndex
  let nHeight := CBlockIndex.nHeight diffIndex
  if diff.hasChanges then l.applyDiff blockHash nHeight diff
  else .ok { l with blockHash := blockHash, nHeight := nHeight }

/-- The first loop of `GetListForBlockInternal`: the snapshot, and the blocks whose diffs
lead from it, the oldest first. -/
def findSnapshot : CBlockIndex → MnM (CDeterministicMNList × List CBlockIndex)
  | [] => throw (.runtimeError "null pointer")
  | block :: pprev => do
    let pindex := block :: pprev
    let s ← get
    match s.mnListsCache block.hash with
    | some snapshot => pure (snapshot, [])
    | none =>
      match s.evoDb.snapshots block.hash with
      | some snapshot => do
        set (s.cacheList block.hash snapshot)
        pure (snapshot, [])
      | none =>
        match s.mnListDiffsCache block.hash with
        | some _ => do
          let found ← findSnapshot pprev
          pure (found.1, found.2 ++ [pindex])
        | none =>
          match s.evoDb.diffs block.hash with
          | none => do
            -- no snapshot and no diff on disk means that it's the initial snapshot
            let snapshot := .initial block.hash (nHeight pindex)
            set { s.cacheList block.hash snapshot with initialSnapshotIndex := some pindex }
            pure (snapshot, [])
          | some diff => do
            set (s.cacheDiff block.hash { diff with nHeight := nHeight pindex })
            let found ← findSnapshot pprev
            pure (found.1, found.2 ++ [pindex])

/-- One round of the second loop, with `mnListDiffsCache.at`. -/
def replayCached (snapshot : CDeterministicMNList) (diffIndex : CBlockIndex) :
    MnM CDeterministicMNList := do
  let s ← get
  match s.mnListDiffsCache (getBlockHash diffIndex) with
  | none => throw (.runtimeError "unordered_map::at")
  | some diff => Prog.lift (snapshot.replay diffIndex diff)

/-- Some LLMQ may still need the list of a height. -/
def neededByQuorums (llmqs : LLMQType → Option LLMQParams) (listHeight nHeight : Int) : Bool :=
  LLMQType.all.any fun type => (llmqs type).any fun params =>
    listHeight.tmod params.dkgInterval == 0 &&
      listHeight + params.dkgInterval * (params.keepOldConnections + 1) ≥ nHeight

section

variable (env : MnEnv)

/-- The snapshots that are kept once there is a tip. -/
def keepSnapshot (snapshot : CDeterministicMNList) (s : EvoState) : EvoState :=
  match s.tipIndex with
  | none => s
  | some tip =>
    if snapshot.blockHash = getBlockHash tip ∨
        neededByQuorums (env.llmqs tip) snapshot.nHeight (nHeight tip) then
      s.cacheList snapshot.blockHash snapshot
    else s

def getListForBlockInternal (pindex : CBlockIndex) : MnM CDeterministicMNList := do
  let found ← findSnapshot pindex
  let snapshot ← found.2.foldlM replayCached found.1
  modify (keepSnapshot env snapshot)
  if snapshot.nHeight = -1 then throw (.runtimeError "assert(snapshot.GetHeight() != -1)")
  else pure snapshot

def getListForBlock (pindex : CBlockIndex) : MnM CDeterministicMNList :=
  getListForBlockInternal env pindex

/-! ## Cleanup -/

/-- `LIST_DIFFS_CACHE_SIZE`: `DISK_SNAPSHOT_PERIOD * DISK_SNAPSHOTS`. -/
def listDiffsCacheSize : Int := 576 * (2304 / 576 + 1)

/-- The lists that `CleanupCache` keeps. -/
def keepsList (s : EvoState) (nHeight : Int) (blockHash : Uint256) (l : CDeterministicMNList) :
    Bool :=
  !(l.nHeight + listDiffsCacheSize < nHeight) &&
    (s.tipIndex.any (fun tip => blockHash == getBlockHash tip) ||
      neededByQuorums (env.llmqs (s.tipIndex.getD [])) l.nHeight nHeight)

def cleanupCache (nHeight : Int) (s : EvoState) : EvoState :=
  { s with
    mnListsCache := fun h => (s.mnListsCache h).filter (keepsList env s nHeight h)
    mnListDiffsCache := fun h => (s.mnListDiffsCache h).filter fun diff =>
      !(diff.nHeight + listDiffsCacheSize < nHeight) }

def doMaintenance (s : EvoState) : EvoState :=
  if s.toCleanup ≤ s.didCleanup then s
  else { cleanupCache env s.toCleanup s with didCleanup := s.toCleanup }

end

/-! ## What the database says -/

/-- The list of a block by the database. -/
def MnDb.listFor (db : MnDb) : CBlockIndex → ListResult
  | [] => .error (.runtimeError "null pointer")
  | block :: pprev =>
    match db.snapshots block.hash with
    | some snapshot => .ok snapshot
    | none =>
      match db.diffs block.hash with
      | none => .ok (.initial block.hash (nHeight (block :: pprev)))
      | some diff => db.listFor pprev >>= fun l => l.replay (block :: pprev) diff

/-- The caches agree with the database on the blocks of `chain`, and nothing is stored
under a hash that the node has not `seen`. -/
structure Coherent (hashes : MerkleHashes) (chain : CBlockIndex) (seen : List Uint256)
    (s : EvoState) : Prop where
  nodup : (chain.map CBlock.hash).Nodup
  subset : ∀ block ∈ chain, block.hash ∈ seen
  lists : ∀ {block pprev l}, block :: pprev <:+ chain → s.mnListsCache block.hash = some l →
    s.evoDb.listFor (block :: pprev) = .ok l
  diffs : ∀ {block pprev diff}, block :: pprev <:+ chain →
    s.mnListDiffsCache block.hash = some diff → ∃ stored, s.evoDb.diffs block.hash = some stored ∧
      diff = { stored with nHeight := nHeight (block :: pprev) }
  stamped : ∀ {block pprev l}, block :: pprev <:+ chain →
    s.evoDb.snapshots block.hash = some l →
      l.stamp = (block.hash, nHeight (block :: pprev))
  confined : ∀ {h}, h ∉ seen → s.mnListsCache h = none ∧ s.mnListDiffsCache h = none ∧
    s.evoDb.snapshots h = none ∧ s.evoDb.diffs h = none
  root : CSimplifiedMNList.calcMerkleRoot hashes s.smlCached = (s.merkleRootCached, s.mutatedCached)

section Blocks

variable {chain : CBlockIndex}

/-- A hash belongs to one block of the chain. -/
lemma suffix_eq_of_hash (hnodup : (chain.map CBlock.hash).Nodup) {block block' : CBlock}
    {pprev pprev' : CBlockIndex} (h : block :: pprev <:+ chain) (h' : block' :: pprev' <:+ chain)
    (hhash : block'.hash = block.hash) : block' :: pprev' = block :: pprev := by
  induction chain with
  | nil => simp at h
  | cons top rest ih =>
    rw [map_cons, nodup_cons] at hnodup
    have habove : ∀ {b : CBlock} {p : CBlockIndex}, b :: p <:+ rest → b.hash ≠ top.hash :=
      fun hs heq => hnodup.1 (heq ▸ mem_map_of_mem (hs.subset mem_cons_self))
    rcases suffix_cons_iff.mp h with heq | hrest
    · rcases suffix_cons_iff.mp h' with heq' | hrest'
      · exact heq'.trans heq.symm
      · cases heq
        exact absurd hhash (habove hrest')
    · rcases suffix_cons_iff.mp h' with heq' | hrest'
      · cases heq'
        exact absurd hhash.symm (habove hrest)
      · exact ih hnodup.2 hrest hrest'

variable {β : Type} {table : Uint256 → Option β} {key k : Uint256} {b : β}

lemma emplace_eq_some {value : β} (h : emplace table key value k = some b) :
    table k = some b ∨ (k = key ∧ b = value) := by
  unfold emplace at h
  split at h
  · next hk =>
    cases htable : table k with
    | none =>
      simp only [htable, none_or, some.injEq] at h
      exact .inr ⟨hk, h.symm⟩
    | some b' =>
      simp only [htable, some_or] at h
      exact .inl h
  · exact .inl h

lemma emplace_of_some (h : table k = some b) (key : Uint256) (value : β) :
    emplace table key value k = some b := by
  unfold emplace
  split
  · rw [h, some_or]
  · exact h

lemma emplace_of_ne (table : Uint256 → Option β) (h : k ≠ key) (value : β) :
    emplace table key value k = table k := if_neg h

lemma emplace_self (h : table key = none) (value : β) :
    emplace table key value key = some value := by
  rw [emplace, if_pos rfl, h, none_or]

end Blocks

/-! ## Lookups agree with the database -/

lemma CDeterministicMNList.stamp_replay {l l' : CDeterministicMNList} {diffIndex : CBlockIndex}
    {diff : CDeterministicMNListDiff} (hrun : l.replay diffIndex diff = .ok l') :
    l'.stamp = (CBlockIndex.getBlockHash diffIndex, CBlockIndex.nHeight diffIndex) := by
  unfold CDeterministicMNList.replay at hrun
  split at hrun
  · exact stamp_applyDiff hrun
  · cases hrun
    rfl

section Lookups

variable {hashes : MerkleHashes} {chain pprev pindex : CBlockIndex} {seen : List Uint256}
  {s : EvoState} {block : CBlock} {l : CDeterministicMNList}

section

variable (hs : Coherent hashes chain seen s) (hsuffix : block :: pprev <:+ chain)

include hs hsuffix

lemma Coherent.stamp_listFor (hlist : s.evoDb.listFor (block :: pprev) = .ok l) :
    l.stamp = (block.hash, nHeight (block :: pprev)) := by
  unfold MnDb.listFor at hlist
  split at hlist
  · next hsnapshot =>
    cases hlist
    exact hs.stamped hsuffix hsnapshot
  · split at hlist
    · cases hlist
      rfl
    · obtain ⟨parent, -, hreplay⟩ := bind_eq_ok.mp hlist
      exact CDeterministicMNList.stamp_replay hreplay

lemma Coherent.hash_mem : block.hash ∈ seen := hs.subset block (hsuffix.subset mem_cons_self)

/-- Caching what the database says keeps the agreement. -/
lemma Coherent.cacheList (hlist : s.evoDb.listFor (block :: pprev) = .ok l) :
    Coherent hashes chain seen (s.cacheList block.hash l) := by
  refine ⟨hs.nodup, hs.subset, ?_, hs.diffs, hs.stamped, ?_, hs.root⟩
  · intro block' pprev' l' hsuffix' hcached
    rcases emplace_eq_some hcached with hcached | ⟨hhash, rfl⟩
    · exact hs.lists hsuffix' hcached
    · rw [suffix_eq_of_hash hs.nodup hsuffix hsuffix' hhash]
      exact hlist
  · intro h hseen
    have hne : h ≠ block.hash := fun heq => hseen (heq ▸ hs.hash_mem hsuffix)
    exact ⟨(emplace_of_ne _ hne _).trans (hs.confined hseen).1, (hs.confined hseen).2⟩

lemma Coherent.cacheDiff
    {stored : CDeterministicMNListDiff} (hstored : s.evoDb.diffs block.hash = some stored) :
    Coherent hashes chain seen (s.cacheDiff block.hash
      { stored with nHeight := nHeight (block :: pprev) }) := by
  refine ⟨hs.nodup, hs.subset, hs.lists, ?_, hs.stamped, ?_, hs.root⟩
  · intro block' pprev' diff hsuffix' hcached
    rcases emplace_eq_some hcached with hcached | ⟨hhash, rfl⟩
    · exact hs.diffs hsuffix' hcached
    · have heq := suffix_eq_of_hash hs.nodup hsuffix hsuffix' hhash
      refine ⟨stored, ?_, by rw [heq]⟩
      rw [hhash]
      exact hstored
  · intro h hseen
    have hne : h ≠ block.hash := fun heq => hseen (heq ▸ hs.hash_mem hsuffix)
    have hconfined := hs.confined hseen
    exact ⟨hconfined.1, (emplace_of_ne _ hne _).trans hconfined.2.1, hconfined.2.2⟩

end

/-- Replaying what the first loop found gives the list, in the state it left. -/
def Leads (found : Except MnFailure (CDeterministicMNList × List CBlockIndex)) (s : EvoState)
    (list : ListResult) : Prop :=
  runs (Prog.lift found >>= fun found => found.2.foldlM replayCached found.1) s = (list, s)

variable {diff : CDeterministicMNListDiff}

/-- A block with a diff adds a round to the second loop. -/
lemma Leads.append {found : Except MnFailure (CDeterministicMNList × List CBlockIndex)}
    {list : ListResult} (h : Leads found s list)
    (hdiff : s.mnListDiffsCache (getBlockHash pindex) = some diff) :
    Leads (found.map fun found => (found.1, found.2 ++ [pindex])) s
      (list >>= fun l => l.replay pindex diff) := by
  have hround : ∀ l, runs (replayCached l pindex) s = (l.replay pindex diff, s) := by
    intro l
    rw [replayCached, runs_bind_of_ok (runs_get s)]
    simp [hdiff]
  cases found with
  | error e =>
    cases (runs_bind_of_error (runs_lift _ s) _).symm.trans h
    rfl
  | ok found =>
    have hloop : runs (found.2.foldlM replayCached found.1) s = (list, s) :=
      (runs_bind_of_ok (runs_lift _ s) _).symm.trans h
    refine (runs_bind_of_ok (runs_lift _ s) _).trans ?_
    rw [foldlM_append, runs_bind, hloop]
    cases list with
    | error e => rfl
    | ok l =>
      simp only [foldlM_cons, foldlM_nil, bind_pure]
      exact hround l

/-- What the first loop does from state `s`: it fills caches, and finds what leads to the
list of the database. -/
structure Finds (hashes : MerkleHashes) (chain : CBlockIndex) (seen : List Uint256) (s : EvoState)
    (list : ListResult)
    (outcome : Except MnFailure (CDeterministicMNList × List CBlockIndex) × EvoState) : Prop where
  coherent : Coherent hashes chain seen outcome.2
  evoDb : outcome.2.evoDb = s.evoDb
  kept : ∀ {h diff}, s.mnListDiffsCache h = some diff → outcome.2.mnListDiffsCache h = some diff
  leads : Leads outcome.1 outcome.2 list

/-- The walk goes on at the parent, with the diff of the block in the cache. -/
lemma Finds.cons {parentList : ListResult}
    (hfinds : Finds hashes chain seen s parentList (runs (findSnapshot pprev) s))
    (hcached : s.mnListDiffsCache block.hash = some diff) :
    Finds hashes chain seen s (parentList >>= fun l => l.replay (block :: pprev) diff)
      (runs (findSnapshot pprev >>= fun found =>
        pure (found.1, found.2 ++ [block :: pprev])) s) := by
  have hrun : runs (findSnapshot pprev >>= fun found =>
        pure (found.1, found.2 ++ [block :: pprev])) s =
      ((runs (findSnapshot pprev) s).1.map fun found => (found.1, found.2 ++ [block :: pprev]),
        (runs (findSnapshot pprev) s).2) := by
    rw [runs_bind]
    cases runs (findSnapshot pprev) s with
    | mk found s' => cases found <;> rfl
  rw [hrun]
  exact ⟨hfinds.coherent, hfinds.evoDb, hfinds.kept, hfinds.leads.append (hfinds.kept hcached)⟩

/-- The first loop, by induction on the chain. -/
lemma finds_findSnapshot (hs : Coherent hashes chain seen s) (hsuffix : pindex <:+ chain) :
    Finds hashes chain seen s (s.evoDb.listFor pindex) (runs (findSnapshot pindex) s) := by
  induction pindex generalizing s with
  | nil => exact ⟨hs, rfl, fun h => h, rfl⟩
  | cons block pprev ih =>
    have hparent := (suffix_cons block pprev).trans hsuffix
    rw [findSnapshot, runs_bind_of_ok (runs_get s)]
    -- a list ends the walk, a diff takes it to the parent
    cases hlist : s.mnListsCache block.hash with
    | some snapshot =>
      rw [hs.lists hsuffix hlist]
      exact ⟨hs, rfl, fun h => h, rfl⟩
    | none =>
      cases hsnapshot : s.evoDb.snapshots block.hash with
      | some snapshot =>
        have hdb : s.evoDb.listFor (block :: pprev) = .ok snapshot := by
          simp [MnDb.listFor, hsnapshot]
        rw [hdb]
        exact ⟨hs.cacheList hsuffix hdb, rfl, fun h => h, rfl⟩
      | none =>
        cases hcached : s.mnListDiffsCache block.hash with
        | some diff =>
          obtain ⟨stored, hstored, rfl⟩ := hs.diffs hsuffix hcached
          have hfinds := (ih hs hparent).cons hcached
          simp only [MnDb.listFor, hsnapshot, hstored]
          exact hfinds
        | none =>
          cases hstored : s.evoDb.diffs block.hash with
          | none =>
            have hdb : s.evoDb.listFor (block :: pprev) =
                .ok (.initial block.hash (nHeight (block :: pprev))) := by
              simp [MnDb.listFor, hsnapshot, hstored]
            have hs' := hs.cacheList hsuffix hdb
            rw [hdb]
            exact ⟨⟨hs'.nodup, hs'.subset, hs'.lists, hs'.diffs, hs'.stamped, hs'.confined,
              hs'.root⟩, rfl, fun h => h, rfl⟩
          | some stored =>
            simp only [MnDb.listFor, hsnapshot, hstored]
            have hs' := hs.cacheDiff hsuffix hstored
            have hcached' : (s.cacheDiff block.hash
                { stored with nHeight := nHeight (block :: pprev) }).mnListDiffsCache
                block.hash = some _ := emplace_self hcached _
            have hfinds := (ih hs' hparent).cons hcached'
            exact ⟨hfinds.coherent, hfinds.evoDb, fun h => hfinds.kept (emplace_of_some h _ _),
              hfinds.leads⟩

lemma Coherent.keepSnapshot (hs : Coherent hashes chain seen s) (env : MnEnv)
    (hsuffix : block :: pprev <:+ chain) (hlist : s.evoDb.listFor (block :: pprev) = .ok l) :
    Coherent hashes chain seen (keepSnapshot env l s) := by
  have hhash : l.blockHash = block.hash := congrArg Prod.fst (hs.stamp_listFor hsuffix hlist)
  unfold Evo.keepSnapshot
  split
  · exact hs
  · split
    · rw [hhash]
      exact hs.cacheList hsuffix hlist
    · exact hs

lemma evoDb_keepSnapshot (env : MnEnv) : (keepSnapshot env l s).evoDb = s.evoDb := by
  unfold keepSnapshot
  split
  · rfl
  · split <;> rfl

lemma nHeight_cons (block : CBlock) (pprev : CBlockIndex) :
    nHeight (block :: pprev) = nHeight pprev + 1 := by
  simp only [nHeight, length_cons]
  omega

lemma nHeight_cons_ne (block : CBlock) (pprev : CBlockIndex) : nHeight (block :: pprev) ≠ -1 := by
  simp only [nHeight, length_cons]
  omega

/-- **Lookups.** The list of a block of the chain is what the database says about it,
whatever the caches hold. -/
theorem reads_getListForBlockInternal (env : MnEnv) (hsuffix : pindex <:+ chain) :
    Reads (Coherent hashes chain seen) EvoState.evoDb (getListForBlockInternal env pindex)
      fun db => db.listFor pindex := by
  -- what the lookup does from a state whose caches agree with the database
  have hrun : ∀ {s}, Coherent hashes chain seen s →
      (runs (getListForBlockInternal env pindex) s).1 = s.evoDb.listFor pindex ∧
      Coherent hashes chain seen (runs (getListForBlockInternal env pindex) s).2 ∧
      (runs (getListForBlockInternal env pindex) s).2.evoDb = s.evoDb := by
    intro s hs
    have hfinds := finds_findSnapshot hs hsuffix
    unfold getListForBlockInternal
    rw [runs_bind]
    cases hfirst : runs (findSnapshot pindex) s with
    | mk found s' =>
      rw [hfirst] at hfinds
      cases found with
      | error e =>
        have herror := (runs_bind_of_error (runs_lift _ s') _).symm.trans hfinds.leads
        exact ⟨congrArg Prod.fst herror, hfinds.coherent, hfinds.evoDb⟩
      | ok found =>
        have hloop : runs (found.2.foldlM replayCached found.1) s' = (s.evoDb.listFor pindex, s') :=
          (runs_bind_of_ok (runs_lift _ s') _).symm.trans hfinds.leads
        dsimp only
        rw [runs_bind, hloop]
        cases hlist : s.evoDb.listFor pindex with
        | error e => exact ⟨rfl, hfinds.coherent, hfinds.evoDb⟩
        | ok l =>
          cases pindex with
          | nil => cases hlist
          | cons block pprev =>
            have hlist' : s'.evoDb.listFor (block :: pprev) = .ok l := by rw [hfinds.evoDb, hlist]
            have hheight : l.nHeight = nHeight (block :: pprev) :=
              congrArg Prod.snd (hs.stamp_listFor hsuffix hlist)
            dsimp only
            rw [hheight, if_neg (nHeight_cons_ne block pprev)]
            exact ⟨rfl, hfinds.coherent.keepSnapshot env hsuffix hlist',
              (evoDb_keepSnapshot env).trans hfinds.evoDb⟩
  exact ⟨fun hs => (hrun hs).1, fun hs => (hrun hs).2.1, fun hs => (hrun hs).2.2⟩

/-! ## Cleanups and restarts -/

variable (hs : Coherent hashes chain seen s)

include hs

/-- The cleanup only takes entries away. -/
lemma Coherent.cleanupCache (env : MnEnv) (nHeight : Int) :
    Coherent hashes chain seen (cleanupCache env nHeight s) := by
  refine ⟨hs.nodup, hs.subset, ?_, ?_, hs.stamped, ?_, hs.root⟩
  · intro block pprev l hsuffix hcached
    exact hs.lists hsuffix (filter_eq_some_iff.mp hcached).1
  · intro block pprev diff hsuffix hcached
    exact hs.diffs hsuffix (filter_eq_some_iff.mp hcached).1
  · intro h hseen
    have hconfined := hs.confined hseen
    refine ⟨?_, ?_, hconfined.2.2⟩
    · simp [Evo.cleanupCache, hconfined.1]
    · simp [Evo.cleanupCache, hconfined.2.1]

lemma Coherent.doMaintenance (env : MnEnv) :
    Coherent hashes chain seen (doMaintenance env s) := by
  unfold Evo.doMaintenance
  split
  · exact hs
  · have hs' := hs.cleanupCache env s.toCleanup
    exact ⟨hs'.nodup, hs'.subset, hs'.lists, hs'.diffs, hs'.stamped, hs'.confined, hs'.root⟩

/-- A restart loses the caches. -/
lemma Coherent.restart : Coherent hashes chain seen (.ofDb s.evoDb) := by
  refine ⟨hs.nodup, hs.subset, ?_, ?_, hs.stamped, fun hseen => ?_, rfl⟩
  · intro block pprev l hsuffix hcached
    cases hcached
  · intro block pprev diff hsuffix hcached
    cases hcached
  · exact ⟨rfl, rfl, (hs.confined hseen).2.2⟩

end Lookups

end HootChain.Evo

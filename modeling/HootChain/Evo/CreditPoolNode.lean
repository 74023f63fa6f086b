import HootChain.Evo.CreditPool
import HootChain.Foundation.CachedReads
import Mathlib.Data.UInt

/-!
# The Credit Pool Manager (`evo/creditpool.cpp`)

`GetCreditPool` walks back to a block whose pool is cached or, at every 576th height,
stored on disk, and computes the pools from there on. A pool is filed under the hash of
its block, so it stays right when blocks are disconnected, when the cache drops it, when
a transaction of the database is rolled back, and when the node is restarted.

A node is followed through the blocks it learns of, connects and disconnects. An index
can be withdrawn once only, unless the largest index is withdrawn: the range that ends in
it is then lost, and what it stood for can be withdrawn again.
-/

namespace HootChain.Evo.CreditPool

open Consensus Foundation Primitives Util List Function Option

/-! ## The manager -/

/-- `creditPoolCache` and the snapshots in the database. -/
structure PoolState where
  creditPoolCache : Uint256 → Option CCreditPool := fun _ => none
  snapshots : Uint256 → Option CCreditPool := fun _ => none

/-- The functions of the manager. -/
abbrev PoolM (α : Type) := Prog PoolFailure PoolState α

def diskSnapshotPeriod : Nat := 576

section

variable (env : PoolEnv)

def getFromCache (block : PoolBlock) (pprev : PoolIndex) : PoolM (Option CCreditPool) := do
  if ¬ env.v20ActiveAfter pprev then pure (some {})
  else
    let s ← get
    match s.creditPoolCache block.hash with
    | some pool => pure (some pool)
    | none =>
      if pprev.length % diskSnapshotPeriod = 0 then
        match s.snapshots block.hash with
        | some pool => do
          set { s with creditPoolCache := update s.creditPoolCache block.hash (some pool) }
          pure (some pool)
        | none => pure none
      else pure none

def addToCache (block : PoolBlock) (pprev : PoolIndex) (pool : CCreditPool) (s : PoolState) :
    PoolState where
  creditPoolCache := update s.creditPoolCache block.hash (some pool)
  snapshots :=
    if pprev.length % diskSnapshotPeriod = 0 then
      update s.snapshots block.hash (some pool)
    else s.snapshots

/-- `GetCreditPool`. The blocks without a pool are looked for from the newest to the oldest,
and their pools computed in the other direction. -/
def getCreditPool (env : PoolEnv) : PoolIndex → PoolM CCreditPool
  | [] => pure {}
  | block :: pprev => do
    match ← getFromCache env block pprev with
    | some pool => pure pool
    | none => do
      let prev ← getCreditPool env pprev
      let pool ← Prog.lift (constructCreditPool env block pprev prev)
      modify (addToCache block pprev pool)
      pure pool

/-- What `ConnectBlock` checks of the asset transactions of a block. -/
def connectChecks (pindexPrev : PoolIndex) (block : PoolBlock) : PoolM Unit := do
  let pool ← getCreditPool env pindexPrev
  Prog.lift (checkSpecialTxs env pindexPrev pool block)
  if env.v20ActiveAfter pindexPrev then do
    let pool ← getCreditPool env pindexPrev
    Prog.lift (checkCreditPoolDiffForBlock env pindexPrev pool block)
  else pure ()

/-! ## Nodes -/

/-- The active chain, the blocks that the node knows, and its pools. -/
structure PoolNode where
  chain : PoolIndex
  blockIndex : List PoolIndex
  state : PoolState := {}

/-- A node with the genesis block. -/
def PoolNode.start (hash : Uint256) : PoolNode where
  chain := [{ hash, coinbase := .legacy }]
  blockIndex := [[{ hash, coinbase := .legacy }]]

/-- What happens to a node. -/
inductive PoolEvent where
  /-- A block becomes known, unless there is one of its hash. -/
  | header (block : PoolBlock) (pprev : PoolIndex)
  /-- A known block on top of the chain is tried; it may fail checks that are not modelled. -/
  | connect (block : PoolBlock) (otherChecks : Bool)
  | disconnect
  /-- Another part of the node asks for the pool of a block. -/
  | lookup (pindex : PoolIndex)
  /-- Pools are dropped from the cache, or lost from the database with a transaction that is
  rolled back. A restart drops the whole cache. -/
  | forget (dropCached dropSnapshot : Uint256 → Bool)

def PoolNode.step (n : PoolNode) : PoolEvent → PoolNode
  | .header block pprev =>
    if pprev ∈ n.blockIndex ∧
        ∀ pindex ∈ n.blockIndex, ∀ tip ∈ pindex.head?, tip.hash ≠ block.hash then
      { n with blockIndex := (block :: pprev) :: n.blockIndex }
    else n
  | .connect block otherChecks =>
    if (block :: n.chain) ∈ n.blockIndex then
      match runs (connectChecks env n.chain block) n.state with
      | (.ok (), state) =>
        if otherChecks then { n with chain := block :: n.chain, state } else { n with state }
      | (.error _, state) => { n with state }
    else n
  | .disconnect =>
    match n.chain with
    | _ :: pprev => if pprev = [] then n else { n with chain := pprev }
    | [] => n
  | .lookup pindex =>
    if pindex ∈ n.blockIndex then { n with state := (runs (getCreditPool env pindex) n.state).2 }
    else n
  | .forget dropCached dropSnapshot =>
    { n with state :=
      { creditPoolCache := fun hash =>
          if dropCached hash then none else n.state.creditPoolCache hash
        snapshots := fun hash => if dropSnapshot hash then none else n.state.snapshots hash } }

/-- A run of a node from its genesis block. -/
def PoolNode.run (hash : Uint256) (events : List PoolEvent) : PoolNode :=
  events.foldl (PoolNode.step env) (.start hash)

end

/-! ## Lookups -/

section Lookups

variable {env : PoolEnv} {known : List PoolIndex} {block : PoolBlock} {pprev pindex : PoolIndex}
  {pool : CCreditPool} {s : PoolState}

/-- The blocks that are known have known parents and different hashes. -/
structure BlockTree (known : List PoolIndex) : Prop where
  parent : ∀ {block pprev}, block :: pprev ∈ known → pprev = [] ∨ pprev ∈ known
  hash_inj : ∀ {block pprev block' pprev'}, block :: pprev ∈ known → block' :: pprev' ∈ known →
    block.hash = block'.hash → block :: pprev = block' :: pprev'

/-- A pool is in the cache or in the database. -/
def PoolState.Holds (s : PoolState) (hash : Uint256) (pool : CCreditPool) : Prop :=
  s.creditPoolCache hash = some pool ∨ s.snapshots hash = some pool

/-- Every pool that is held is that of a known block. -/
def Faithful (env : PoolEnv) (known : List PoolIndex) (s : PoolState) : Prop :=
  ∀ hash pool, s.Holds hash pool → ∃ block pprev, block :: pprev ∈ known ∧ block.hash = hash ∧
    creditPool env (block :: pprev) = .ok pool

section

variable (h : Faithful env known s)

include h

lemma Faithful.eq_ok (htree : BlockTree known)
    (hmem : block :: pprev ∈ known) (hpool : s.Holds block.hash pool) :
    creditPool env (block :: pprev) = .ok pool := by
  obtain ⟨block', pprev', hmem', hhash, hok⟩ := h _ _ hpool
  rw [htree.hash_inj hmem hmem' hhash.symm]
  exact hok

variable (hmem : block :: pprev ∈ known) (hok : creditPool env (block :: pprev) = .ok pool)

include hmem hok

/-- The pool of a known block may be written anywhere under its hash. -/
lemma Faithful.write {s' : PoolState}
    (hwrite : ∀ hash pool', s'.Holds hash pool' →
      s.Holds hash pool' ∨ hash = block.hash ∧ pool' = pool) : Faithful env known s' := by
  intro hash pool' hpool'
  rcases hwrite hash pool' hpool' with hold | ⟨rfl, rfl⟩
  · exact h hash pool' hold
  · exact ⟨block, pprev, hmem, rfl, hok⟩

omit h hmem hok in
lemma eq_of_update {m : Uint256 → Option CCreditPool} {key hash : Uint256}
    {pool' : CCreditPool} (h : update m key (some pool) hash = some pool') :
    m hash = some pool' ∨ hash = key ∧ pool' = pool := by
  by_cases heq : hash = key
  · subst heq
    rw [update_self] at h
    exact .inr ⟨rfl, (some.inj h).symm⟩
  · rw [update_of_ne heq] at h
    exact .inl h

lemma Faithful.cache :
    Faithful env known
      { s with creditPoolCache := update s.creditPoolCache block.hash (some pool) } := by
  refine h.write hmem hok fun hash pool' hpool' => ?_
  rcases hpool' with hcached | hstored
  · exact (eq_of_update hcached).imp_left .inl
  · exact .inl (.inr hstored)

lemma Faithful.addToCache : Faithful env known (addToCache block pprev pool s) := by
  refine h.write hmem hok fun hash pool' hpool' => ?_
  rcases hpool' with hcached | hstored
  · exact (eq_of_update hcached).imp_left .inl
  · simp only [CreditPool.addToCache] at hstored
    split at hstored
    · exact (eq_of_update hstored).imp_left .inr
    · exact .inl (.inr hstored)

end

section

variable (htree : BlockTree known)

include htree

/-- `GetFromCache` finds the pool of the block, or finds nothing while V20 is active. -/
lemma getFromCache_spec (hs : Faithful env known s) (hmem : block :: pprev ∈ known) :
    ∃ found s', runs (getFromCache env block pprev) s = (.ok found, s') ∧
      Faithful env known s' ∧
      match found with
      | some pool => creditPool env (block :: pprev) = .ok pool
      | none => env.v20ActiveAfter pprev = true := by
  by_cases hactive : env.v20ActiveAfter pprev = true
  case neg =>
    rw [getFromCache, if_pos hactive]
    exact ⟨some {}, s, rfl, hs, by rw [creditPool, if_neg hactive]⟩
  rw [getFromCache, if_neg (not_not.mpr hactive), runs_bind_of_ok (runs_get s)]
  cases hcached : s.creditPoolCache block.hash with
  | some pool => exact ⟨some pool, s, rfl, hs, hs.eq_ok htree hmem (.inl hcached)⟩
  | none =>
    by_cases hperiod : pprev.length % diskSnapshotPeriod = 0
    case neg => exact ⟨none, s, by rw [if_neg hperiod]; rfl, hs, hactive⟩
    rw [if_pos hperiod]
    cases hstored : s.snapshots block.hash with
    | none => exact ⟨none, s, rfl, hs, hactive⟩
    | some pool =>
      have hok := hs.eq_ok htree hmem (.inr hstored)
      exact ⟨some pool, _, rfl, hs.cache hmem hok, hok⟩

/-- A block whose pool is not found has it computed from the pool of the previous block. -/
lemma runs_getCreditPool_cons (hs : Faithful env known s) (hmem : block :: pprev ∈ known)
    (hprev : Reads (Faithful env known) (fun _ => ()) (getCreditPool env pprev) fun _ =>
      creditPool env pprev) :
    ∃ s', runs (getCreditPool env (block :: pprev)) s = (creditPool env (block :: pprev), s') ∧
      Faithful env known s' := by
  obtain ⟨found, s₁, hcache, hs₁, hfound⟩ := getFromCache_spec htree hs hmem
  rw [getCreditPool, runs_bind_of_ok hcache]
  cases found with
  | some pool =>
    rw [show creditPool env (block :: pprev) = .ok pool from hfound]
    exact ⟨s₁, rfl, hs₁⟩
  | none =>
    obtain ⟨s₂, hrun, hs₂, -⟩ := hprev.exists_runs hs₁
    rw [creditPool, if_pos hfound]
    cases hprevPool : creditPool env pprev with
    | error e =>
      rw [hprevPool] at hrun
      exact ⟨s₂, runs_bind_of_error hrun _, hs₂⟩
    | ok prev =>
      rw [hprevPool] at hrun
      rw [runs_bind_of_ok hrun]
      show ∃ s', runs (Prog.lift _ >>= _) s₂ = (constructCreditPool env block pprev prev, s') ∧ _
      cases hnext : constructCreditPool env block pprev prev with
      | error e => exact ⟨s₂, rfl, hs₂⟩
      | ok pool =>
        have hok : creditPool env (block :: pprev) = .ok pool := by
          rw [creditPool, if_pos hfound, hprevPool]
          exact hnext
        exact ⟨_, rfl, hs₂.addToCache hmem hok⟩

/-- **A lookup** returns what the blocks say, whatever has been cached or stored. -/
theorem reads_getCreditPool (hmem : pindex = [] ∨ pindex ∈ known) :
    Reads (Faithful env known) (fun _ => ()) (getCreditPool env pindex) fun _ =>
      creditPool env pindex := by
  induction pindex with
  | nil => exact Reads.lift (.ok ({} : CCreditPool))
  | cons block pprev ih =>
    replace hmem : block :: pprev ∈ known := hmem.resolve_left (cons_ne_nil block pprev)
    have hprev := ih (htree.parent hmem)
    refine ⟨fun hs => ?_, fun hs => ?_, fun _ => rfl⟩
    · obtain ⟨s', hrun, -⟩ := runs_getCreditPool_cons htree hs hmem hprev
      rw [hrun]
    · obtain ⟨s', hrun, hs'⟩ := runs_getCreditPool_cons htree hs hmem hprev
      rw [hrun]
      exact hs'

variable (block) in
lemma reads_connectChecks (hmem : pindex ∈ known) :
    Reads (Faithful env known) (fun _ => ()) (connectChecks env pindex block) fun _ =>
      checkBlock env pindex block := by
  have hlookup : Reads (Faithful env known) (fun _ => ()) (getCreditPool env pindex) fun _ =>
      creditPool env pindex := reads_getCreditPool htree (.inr hmem)
  refine hlookup.bind fun pool => (Reads.lift _).bind fun _ => ?_
  split
  · exact hlookup.bind fun pool => Reads.lift _
  · exact Reads.lift (.ok ())

end

end Lookups

/-! ## Runs -/

section Runs

open PoolNode (run step)

variable {env : PoolEnv} {n : PoolNode}

/-- What holds of a node at any time. -/
structure NodeInv (env : PoolEnv) (n : PoolNode) : Prop where
  accepted : Accepted env n.chain
  known : n.chain ∈ n.blockIndex
  tree : BlockTree n.blockIndex
  faithful : Faithful env n.blockIndex n.state

lemma nodeInv_start (env : PoolEnv) (hash : Uint256) : NodeInv env (.start hash) where
  accepted := .genesis hash
  known := mem_singleton_self _
  tree := by
    refine ⟨fun hmem => ?_, fun hmem hmem' _ => ?_⟩
    · exact .inl (cons.inj (mem_singleton.mp hmem)).2
    · exact (mem_singleton.mp hmem).trans (mem_singleton.mp hmem').symm
  faithful hash pool hpool := by
    rcases hpool with hcached | hstored
    · cases hcached
    · cases hstored

lemma BlockTree.insert {known : List PoolIndex} (h : BlockTree known) {block : PoolBlock}
    {pprev : PoolIndex} (hpprev : pprev ∈ known)
    (hnew : ∀ pindex ∈ known, ∀ tip ∈ pindex.head?, tip.hash ≠ block.hash) :
    BlockTree ((block :: pprev) :: known) := by
  refine ⟨fun hmem => ?_, fun hmem hmem' hhash => ?_⟩
  · rcases mem_cons.mp hmem with heq | hmem
    · exact .inr (mem_cons_of_mem _ ((cons.inj heq).2 ▸ hpprev))
    · exact (h.parent hmem).imp_right (mem_cons_of_mem _)
  · rcases mem_cons.mp hmem with heq | hmem
    · rcases mem_cons.mp hmem' with heq' | hmem'
      · exact heq.trans heq'.symm
      · cases heq
        exact absurd hhash.symm (hnew _ hmem' _ rfl)
    · rcases mem_cons.mp hmem' with heq' | hmem'
      · cases heq'
        exact absurd hhash (hnew _ hmem _ rfl)
      · exact h.hash_inj hmem hmem' hhash

/-- A block that is connected has passed the checks. -/
lemma NodeInv.connect (h : NodeInv env n) (block : PoolBlock) (otherChecks : Bool) :
    NodeInv env (n.step env (.connect block otherChecks)) := by
  rw [step]
  split
  case isFalse => exact h
  case isTrue hknown =>
    obtain ⟨s', hrun, hs', -⟩ := (reads_connectChecks block h.tree h.known).exists_runs h.faithful
    rw [hrun]
    cases hcheck : checkBlock env n.chain block with
    | error e => exact ⟨h.accepted, h.known, h.tree, hs'⟩
    | ok u =>
      cases otherChecks with
      | false => exact ⟨h.accepted, h.known, h.tree, hs'⟩
      | true => exact ⟨.connect h.accepted hcheck, hknown, h.tree, hs'⟩

lemma NodeInv.disconnect (h : NodeInv env n) : NodeInv env (n.step env .disconnect) := by
  obtain ⟨haccepted, hknown, htree, hfaithful⟩ := h
  rw [step]
  cases hchain : n.chain with
  | nil => exact ⟨haccepted, hknown, htree, hfaithful⟩
  | cons block pprev =>
    rw [hchain] at haccepted hknown
    by_cases hgenesis : pprev = []
    · simp only [if_pos hgenesis]
      exact ⟨hchain ▸ haccepted, hchain ▸ hknown, htree, hfaithful⟩
    · simp only [if_neg hgenesis]
      exact ⟨haccepted.of_suffix (suffix_cons ..) hgenesis,
        (htree.parent hknown).resolve_left hgenesis, htree, hfaithful⟩

lemma NodeInv.step (h : NodeInv env n) (e : PoolEvent) : NodeInv env (n.step env e) := by
  cases e with
  | header block pprev =>
    rw [PoolNode.step]
    split
    case isFalse => exact h
    case isTrue hnew =>
      refine ⟨h.accepted, mem_cons_of_mem _ h.known, h.tree.insert hnew.1 hnew.2, ?_⟩
      intro hash pool hpool
      obtain ⟨block', pprev', hmem, hhash, hok⟩ := h.faithful hash pool hpool
      exact ⟨block', pprev', mem_cons_of_mem _ hmem, hhash, hok⟩
  | connect block otherChecks => exact h.connect block otherChecks
  | disconnect => exact h.disconnect
  | lookup pindex =>
    rw [PoolNode.step]
    split
    case isFalse => exact h
    case isTrue hmem =>
      exact ⟨h.accepted, h.known, h.tree, (reads_getCreditPool h.tree (.inr hmem)).inv h.faithful⟩
  | forget dropCached dropSnapshot =>
    refine ⟨h.accepted, h.known, h.tree, fun hash pool hpool => h.faithful hash pool ?_⟩
    rcases hpool with hcached | hstored
    · exact .inl ((ite_none_left_eq_some.mp hcached).2)
    · exact .inr ((ite_none_left_eq_some.mp hstored).2)

/-- **Runs.** The chain of a node is one that was accepted, with its lookups made through
caches and snapshots. -/
theorem nodeInv_run (env : PoolEnv) (hash : Uint256) (events : List PoolEvent) :
    NodeInv env (run env hash events) :=
  foldlRecOn events (step env) (nodeInv_start env hash) fun _ h e _ => h.step e

/-- **Lookups.** Whatever has been asked for, evicted, stored and rolled back, `GetCreditPool`
gives the pool of a known block that `ConstructCreditPool` computes from the empty pool of the
blocks without V20, one block after the other. -/
theorem getCreditPool_run (env : PoolEnv) (hash : Uint256) (events : List PoolEvent)
    (pindex : PoolIndex) (hmem : pindex ∈ (run env hash events).blockIndex) :
    (runs (getCreditPool env pindex) (run env hash events).state).1 =
      creditPool env pindex :=
  have hinv := nodeInv_run env hash events
  (reads_getCreditPool hinv.tree (.inr hmem)).result hinv.faithful

/-- An event does not connect a block that withdraws the largest index. -/
def PoolEvent.SparesLargest : PoolEvent → Prop
  | .connect block _ => ∀ index ∈ block.unlockIndexes, index.toNat ≠ uint64Max
  | _ => True

/-- A chain without the largest index stays so. -/
lemma spared_step {e : PoolEvent} (he : e.SparesLargest)
    (h : ∀ index ∈ usedIndexes n.chain, index.toNat ≠ uint64Max) :
    ∀ index ∈ usedIndexes (n.step env e).chain, index.toNat ≠ uint64Max := by
  cases e with
  | header block pprev =>
    rw [step]
    split <;> exact h
  | lookup pindex =>
    rw [step]
    split <;> exact h
  | forget dropCached dropSnapshot => exact h
  | connect block otherChecks =>
    have hcons : ∀ index ∈ usedIndexes (block :: n.chain), index.toNat ≠ uint64Max :=
      forall_mem_append.mpr ⟨he, h⟩
    rw [step]
    split
    case isFalse => exact h
    case isTrue =>
      split
      · split
        · exact hcons
        · exact h
      · exact h
  | disconnect =>
    rw [step]
    cases hchain : n.chain with
    | nil => exact h
    | cons block pprev =>
      rw [hchain] at h
      by_cases hgenesis : pprev = []
      · simp only [if_pos hgenesis]
        exact hchain ▸ h
      · simp only [if_neg hgenesis]
        exact (forall_mem_append.mp h).2

/-- **Single use.** In a run that never connects a block with the largest index, every index
is withdrawn at most once on the active chain. -/
theorem withdrawn_once (env : PoolEnv) (hash : Uint256) (events : List PoolEvent)
    (hspares : ∀ e ∈ events, e.SparesLargest) (index : UInt64) :
    (usedIndexes (run env hash events).chain).count index ≤ 1 := by
  have hspared : ∀ i ∈ usedIndexes (run env hash events).chain, i.toNat ≠ uint64Max :=
    foldlRecOn (motive := fun n => ∀ i ∈ usedIndexes n.chain, i.toNat ≠ uint64Max)
      events (step env) (by simp [PoolNode.start, usedIndexes, PoolBlock.unlockIndexes])
      fun _ h e he => spared_step (hspares e he) h
  have hinv := poolInv_of_accepted (nodeInv_run env hash events).accepted
  exact nodup_iff_count_le_one.mp (hinv.tracked hspared).1 index

/-- A node learns of blocks and connects them, one after the other. -/
def extendWith : PoolIndex → List PoolBlock → List PoolEvent
  | _, [] => []
  | chain, block :: rest =>
    .header block chain :: .connect block true :: extendWith (block :: chain) rest

theorem getCreditPool_run_lockBlock :
    (runs (getCreditPool openEnv [lockBlock, poolGenesis]) (run openEnv 1
      [.header lockBlock [poolGenesis], .lookup [lockBlock, poolGenesis],
        .forget (fun _ => true) fun _ => false]).state).1 =
      creditPool openEnv [lockBlock, poolGenesis] :=
  getCreditPool_run openEnv 1 _ _ (by decide +kernel)

theorem withdrawn_once_unlockBlock :
    (usedIndexes (run openEnv 1 (extendWith [poolGenesis]
      [lockBlock, unlockBlock 3 7 (9 * coin)])).chain).count 7 ≤ 1 := by
  refine withdrawn_once openEnv 1 _ ?_ 7
  simp [extendWith, PoolEvent.SparesLargest, PoolBlock.unlockIndexes, lockBlock, unlockBlock,
    PoolTx.unlockIndex, uint64Max]

/-- The last index but one is withdrawn, then the last one, which loses the range of both. -/
theorem withdrawn_twice :
    (usedIndexes (run openEnv 1 (extendWith [poolGenesis]
      [lockBlock, unlockBlock 3 (2 ^ 64 - 2) (9 * coin), unlockBlock 4 (2 ^ 64 - 1) (8 * coin),
        unlockBlock 5 (2 ^ 64 - 2) (7 * coin)])).chain).count (2 ^ 64 - 2) = 2 := by
  decide +kernel

end Runs

end HootChain.Evo.CreditPool

import HootChain.Evo.ProcessBlock

/-!
# Chains of Blocks and Their Masternode Lists

A node accepts and rejects blocks, checks blocks it does not connect, looks lists up,
cleans its caches and restarts. Through all of this the list it returns for a block of
its chain is fixed when the block is connected.

The coinbase of a block commits to the list before the bans of `ProcessBlock`, and the
node keeps the list after them. The two have one merkle root unless someone is banned.
-/

namespace HootChain.Evo

open Primitives Foundation CDeterministicMNList List CBlockIndex Bool

/-! ## Nodes -/

/-- A node: its active chain, the hashes of all blocks it has connected or rejected, and
the state of the masternode list manager. -/
structure MnNode where
  chain : CBlockIndex
  seen : List Uint256
  state : EvoState

/-- What a node does. -/
inductive MnEvent where
  | connectBlock (block : CBlock) (fScriptChecks : Bool)
  | testBlockValidity (block : CBlock)
  | getListForBlock (pindex : CBlockIndex)
  | updatedBlockTip
  | doMaintenance
  | restart

/-- The ids of the transactions of a chain. -/
def txids (chain : CBlockIndex) : List Uint256 :=
  chain.flatMap fun block => block.txs.map CTransaction.hash

namespace MnNode

/-- A node on the genesis block. -/
def start (genesis : CBlock) : MnNode :=
  { chain := [genesis], seen := [genesis.hash]
    state := .ofDb ⟨fun _ => none, fun _ => none⟩ }

variable (env : MnEnv) (hashes : MerkleHashes) (sorter : RegistrationSort)

section

variable (n : MnNode)

/-- `GetListForBlock` in the state of the node. -/
def listOf (pindex : CBlockIndex) : ListResult :=
  (runs (Evo.getListForBlock env pindex) n.state).1

/-- A block the node tries to connect: one it does not know, with a coinbase of the type
`ContextualCheckBlock` asks for. The rules for coins let no transaction into a chain twice. -/
def canTry (block : CBlock) : Bool :=
  !n.seen.contains block.hash && !(env.isDIP0003Active n.chain && block.coinbase == .none) &&
    block.txs.all fun tx => !(txids n.chain).contains tx.hash

/-- `ConnectTip`: the database transaction is committed or dropped with the block. -/
def connectBlock (block : CBlock) (fScriptChecks : Bool) : MnNode :=
  if n.canTry env block then
    match runs (processSpecialTxsInBlock env hashes sorter block n.chain false fScriptChecks)
        n.state with
    | (.ok (), s) => { chain := block :: n.chain, seen := block.hash :: n.seen, state := s }
    | (.error _, s) => { n with
        seen := block.hash :: n.seen, state := { s with evoDb := n.state.evoDb } }
  else n

/-- One event. Lists are looked up for blocks of the chain only. -/
def step : MnEvent → MnNode
  | .connectBlock block fScriptChecks => n.connectBlock env hashes sorter block fScriptChecks
  | .testBlockValidity block => { n with
      state := (runs (processSpecialTxsInBlock env hashes sorter block n.chain true true)
        n.state).2 }
  | .getListForBlock pindex =>
      if pindex <:+ n.chain then
        { n with state := (runs (Evo.getListForBlock env pindex) n.state).2 }
      else n
  | .updatedBlockTip => { n with state := { n.state with tipIndex := some n.chain } }
  | .doMaintenance => { n with state := Evo.doMaintenance env n.state }
  | .restart => { n with state := .ofDb n.state.evoDb }

def run (events : List MnEvent) : MnNode := events.foldl (step env hashes sorter) n

end

end MnNode

/-! ## Connecting a block -/

/-- The list of a chain by the database: its maps fit together and its masternodes were
registered on the chain. -/
structure TipList (db : MnDb) (chain : CBlockIndex) (l : CDeterministicMNList) : Prop where
  listFor : db.listFor chain = .ok l
  indexed : l.WellIndexed
  known : ∀ h, l.getMN h ≠ none → h ∈ txids chain

section Outcomes

variable (env : MnEnv) (hashes : MerkleHashes) (sorter : RegistrationSort) (block : CBlock)
  (chain : CBlockIndex) (seen : List Uint256) (checked : Bool) (old new l : CDeterministicMNList)
  (s s' : EvoState)

/-- How the list of a connected block came about. -/
structure Built : Prop where
  build : buildNewListFromBlock env chain block old = .ok new
  indexed : new.WellIndexed
  height : new.nHeight = nHeight (block :: chain)
  list : ∃ change, KeptBy sorter (nHeight (block :: chain)) old new change ∧
    ∀ k, l.getMN k = (new.getMN k).map change
  back : Follows l old
  commits : checked = true → Commits hashes block.coinbase (.ok new)

variable {env hashes sorter block chain checked old new l} in
lemma Built.height_ne (h : Built env hashes sorter block chain checked old new l) :
    new.nHeight ≠ -1 := by
  rw [h.height]
  exact nHeight_cons_ne block chain

/-- What is known once a block has been connected. -/
structure Connected : Prop where
  coherent : Coherent hashes (block :: chain) (block.hash :: seen) s'
  kept : ∀ {pindex}, pindex <:+ chain → s'.evoDb.listFor pindex = s.evoDb.listFor pindex
  tip : ∃ l, TipList s'.evoDb (block :: chain) l ∧ (env.isDIP0003Active chain = true →
    ∃ old new, s.evoDb.listFor chain = .ok old ∧
      Built env hashes sorter block chain checked old new l)

/-- What a block has to meet to be accepted, `old` being the list of its parent. -/
structure Acceptable : Prop where
  passes : Passes env block chain old
  builds : env.isDIP0003Active chain = true →
    ∃ new, buildNewListFromBlock env chain block old = .ok new
  commits : checked = true → Commits hashes block.coinbase (buildNewListFromBlock env chain block old)

/-- What connecting a block comes to: acceptance, or a failure after which the caches agree
with the old database. -/
def Outcome : Except MnFailure Unit × EvoState → Prop
  | (.ok (), s') => Acceptable env hashes block chain checked old ∧
      Connected env hashes sorter block chain seen checked s s'
  | (.error _, s') => ¬ Acceptable env hashes block chain checked old ∧
      Coherent hashes chain (block.hash :: seen) { s' with evoDb := s.evoDb }

/-- The part of `ProcessSpecialTxsInBlock` after the checks of the transactions. -/
abbrev afterChecks :=
  processBlock env sorter block chain false >>= fun _ =>
    if checked then checkCbTxMerkleRoots env hashes block chain else pure ()

end Outcomes

section Connect

variable {env : MnEnv} {hashes : MerkleHashes} {sorter : RegistrationSort} {block : CBlock}
  {chain : CBlockIndex} {seen : List Uint256} {checked : Bool} {s : EvoState}
  {old : CDeterministicMNList}

/-- The last part of the processing: the root, where it is checked. -/
lemma exists_runs_rootCheck {chain' : CBlockIndex} (hs : Coherent hashes chain' seen s)
    (hsuffix : chain <:+ chain') (env : MnEnv) (block : CBlock) (checked : Bool) :
    ∃ result s', runs (if checked then checkCbTxMerkleRoots env hashes block chain else pure ()) s =
        (result, s') ∧ Coherent hashes chain' seen s' ∧ s'.evoDb = s.evoDb ∧
      (result = .ok () ↔ (checked = true →
        Commits hashes block.coinbase (s.evoDb.newListFor env block chain))) := by
  cases checked with
  | false => exact ⟨.ok (), s, rfl, hs, rfl, by simp⟩
  | true =>
    have hspec := checkCbTxMerkleRoots_spec env block hs hsuffix
    refine ⟨(runs (checkCbTxMerkleRoots env hashes block chain) s).1, _, rfl, hspec.1, hspec.2.1,
      hspec.2.2.trans ?_⟩
    simp

/-- An inactive node leaves the coinbase without payload. -/
lemma coinbase_eq_none (hinactive : env.isDIP0003Active chain = false)
    (hpasses : Passes env block chain old) : block.coinbase = .none := by
  have hcoinbase := hpasses.1
  unfold checkCoinbase at hcoinbase
  by_contra hne
  rw [if_neg hne, if_pos (by simp [hinactive])] at hcoinbase
  cases hcoinbase

/-- The check of the root adds what it checks. -/
lemma Connected.check {s₂ : EvoState}
    (hconnected : Connected env hashes sorter block chain seen false s s₁)
    (hs₂ : Coherent hashes (block :: chain) (block.hash :: seen) s₂) (hdb : s₂.evoDb = s₁.evoDb)
    (hcommits : checked = true →
      Commits hashes block.coinbase (s₁.evoDb.newListFor env block chain)) :
    Connected env hashes sorter block chain seen checked s s₂ := by
  refine ⟨hs₂, fun hsuffix => by rw [hdb, hconnected.kept hsuffix], ?_⟩
  obtain ⟨l, htip, hbuilt⟩ := hconnected.tip
  refine ⟨l, hdb.symm ▸ htip, fun hactive => ?_⟩
  obtain ⟨old, new, hold, hbuilt⟩ := hbuilt hactive
  refine ⟨old, new, hold, hbuilt.build, hbuilt.indexed, hbuilt.height, hbuilt.list,
    hbuilt.back, fun hchecked => ?_⟩
  have hnew : s₁.evoDb.newListFor env block chain = .ok new := by
    rw [MnDb.newListFor, hconnected.kept suffix_rfl, hold]
    exact hbuilt.build
  rw [← hnew]
  exact hcommits hchecked

section

variable (hs : Coherent hashes chain seen s)

include hs

/-- A block for which nothing is stored. -/
lemma Coherent.extend (hfresh : block.hash ∉ seen) :
    Coherent hashes (block :: chain) (block.hash :: seen) s := by
  obtain ⟨hlists, hdiffs, hsnapshots, hstored⟩ := hs.confined hfresh
  refine ⟨?_, ?_, ?_, ?_, ?_, (hs.see block.hash).confined, hs.root⟩
  · rw [map_cons, nodup_cons]
    exact ⟨hs.hash_notMem hfresh suffix_rfl, hs.nodup⟩
  · intro top htop
    rcases mem_cons.mp htop with rfl | htop
    · exact mem_cons_self ..
    · exact (hs.see block.hash).subset top htop
  · intro top rest l hsuffix hcached
    rcases suffix_cons_iff.mp hsuffix with heq | hsuffix
    · cases heq
      rw [hlists] at hcached
      cases hcached
    · exact hs.lists hsuffix hcached
  · intro top rest diff hsuffix hcached
    rcases suffix_cons_iff.mp hsuffix with heq | hsuffix
    · cases heq
      rw [hdiffs] at hcached
      cases hcached
    · exact hs.diffs hsuffix hcached
  · intro top rest l hsuffix hsnapshot
    rcases suffix_cons_iff.mp hsuffix with heq | hsuffix
    · cases heq
      rw [hsnapshots] at hsnapshot
      cases hsnapshot
    · exact hs.stamped hsuffix hsnapshot

/-- Before the activation a connected block has the empty list. -/
lemma tipList_extend (hfresh : block.hash ∉ seen) :
    TipList s.evoDb (block :: chain) (.initial block.hash (nHeight (block :: chain))) := by
  obtain ⟨-, -, hsnapshots, hstored⟩ := hs.confined hfresh
  refine ⟨?_, .initial .., fun h hne => absurd rfl hne⟩
  simp [MnDb.listFor, hsnapshots, hstored]

variable {new : CDeterministicMNList} {s₁ : EvoState}

lemma Coherent.height_listFor (hne : chain ≠ [])
    (hlist : s.evoDb.listFor chain = .ok old) : old.nHeight = nHeight chain := by
  cases chain with
  | nil => exact absurd rfl hne
  | cons top rest => exact congrArg Prod.snd (hs.stamp_listFor suffix_rfl hlist)

omit hs in
/-- The list that `ProcessBlock` starts from has the properties the writes rely on. -/
lemma exists_built (htip : TipList s.evoDb chain old) (hs : Coherent hashes chain seen s)
    (hne : chain ≠ []) (htxs : ∀ tx ∈ block.txs, tx.hash ∉ txids chain)
    (hpasses : Passes env block chain old)
    (hbuild : buildNewListFromBlock env chain block old = .ok new) :
    Evolved old (block.txs.map CTransaction.hash) new ∧
      new.nHeight = CBlockIndex.nHeight (block :: chain) := by
  have hheight := hs.height_listFor hne htip.listFor
  have hfresh : ∀ tx ∈ block.txs, old.getMN tx.hash = none := by
    intro tx htx
    by_contra hsome
    exact htxs tx htx (htip.known tx.hash hsome)
  have hevolved := evolved_buildNewListFromBlock htip.indexed hheight hpasses.2 hfresh hbuild
  refine ⟨hevolved, ?_⟩
  rw [hevolved.height, hheight, nHeight_cons]

omit hs in
lemma eq_of_evoDb (hdb : s₁.evoDb = s.evoDb) : { s₁ with evoDb := s.evoDb } = s₁ := by
  rw [← hdb]

omit hs in
/-- A state that has only been read from. -/
lemma Coherent.rejected (hs₁ : Coherent hashes chain seen s₁) (hdb : s₁.evoDb = s.evoDb)
    (h : Uint256) : Coherent hashes chain (h :: seen) { s₁ with evoDb := s.evoDb } := by
  rw [eq_of_evoDb hdb]
  exact hs₁.see h

section

variable (hfresh : block.hash ∉ seen) (hactive : env.isDIP0003Active chain = true)
  (htip : TipList s.evoDb chain old) (hne : chain ≠ [])
  (htxs : ∀ tx ∈ block.txs, tx.hash ∉ txids chain) (hpasses : Passes env block chain old)

include hfresh hactive htip hne htxs hpasses

variable (sorter) in
/-- The processing of a block after the activation, up to the root. A later failure rolls
the database back. -/
lemma exists_runs_active (hbuild : buildNewListFromBlock env chain block old = .ok new) :
    ∃ s₁, runs (processBlock env sorter block chain false) s = (.ok (), s₁) ∧
      Connected env hashes sorter block chain seen false s s₁ ∧
      ∀ {s₂}, Coherent hashes (block :: chain) (block.hash :: seen) s₂ →
        s₂.evoDb = s₁.evoDb → Coherent hashes chain (block.hash :: seen)
          { s₂ with evoDb := s.evoDb } := by
  obtain ⟨hevolved, hheight⟩ := exists_built htip hs hne htxs hpasses hbuild
  -- the list with the hash of the block
  have hindexed : WellIndexed { new with blockHash := block.hash } := hevolved.indexed.stamped ..
  have hfollows : Follows old { new with blockHash := block.hash } :=
    ⟨hevolved.follows.same, hevolved.follows.kept⟩
  obtain ⟨banned, hban, hpunishing, -⟩ := exists_banOldNodes sorter
    (nHeight (block :: chain)) hindexed
  obtain ⟨s₁, hs₁, hdb₁, hrun⟩ := exists_runs_processBlock hs htip.listFor hban hactive hbuild
  have hstamp : banned.stamp = (block.hash, nHeight (block :: chain)) := by
    rw [hpunishing.stamp, stamp, hheight]
  have hstored : Coherent hashes (block :: chain) (block.hash :: seen)
      (store block chain (old.buildDiff { new with blockHash := block.hash }) banned s₁) :=
    hs₁.store hfresh hstamp
  obtain ⟨l, hlist, hl, change, hchange, hget⟩ := exists_listFor_store hfresh hs₁ htip.indexed
    (hdb₁ ▸ htip.listFor) hindexed hfollows hban
  have hback : Follows l old :=
    hchange.follows htip.indexed hindexed ⟨hevolved.back.same, hevolved.back.kept⟩ hget
  have hknown : ∀ h, l.getMN h ≠ none → h ∈ txids (block :: chain) := by
    intro h hsome
    have hnew : new.getMN h ≠ none := by
      intro hnone
      have hnone' : getMN { new with blockHash := block.hash } h = none := hnone
      exact hsome (by rw [hget, hnone', Option.map_none])
    rw [txids, flatMap_cons, mem_append]
    rcases hevolved.known h hnew with hold | hmem
    · exact .inr (htip.known h hold)
    · exact .inl hmem
  refine ⟨_, hrun, ⟨?_, ?_, l, ⟨hlist, hl, hknown⟩, fun _ => ⟨old, new, htip.listFor, hbuild,
    hevolved.indexed, hheight, ⟨change, hchange, hget⟩, hback, nofun⟩⟩, ?_⟩
  · exact ⟨hstored.nodup, hstored.subset, hstored.lists, hstored.diffs, hstored.stamped,
      hstored.confined, hstored.root⟩
  · intro pindex hsuffix
    have hkept : (store block chain (old.buildDiff { new with blockHash := block.hash }) banned
        s₁).evoDb.listFor pindex = s₁.evoDb.listFor pindex :=
      listFor_store (hs₁.hash_notMem hfresh hsuffix)
    rw [← hdb₁]
    exact hkept
  · intro s₂ hs₂ hdb₂
    have hback := hs₁.rollback hfresh hs₂ hdb₂
    rwa [hdb₁] at hback

/-- The part after the checks, once the activation is reached. -/
lemma outcome_active : Outcome env hashes sorter block chain seen checked old s
      (runs (afterChecks env hashes sorter block chain checked) s) := by
  have hnewListFor : s.evoDb.newListFor env block chain =
      buildNewListFromBlock env chain block old := by
    rw [MnDb.newListFor, htip.listFor]
    rfl
  cases hbuild : buildNewListFromBlock env chain block old with
  | error e =>
    obtain ⟨s₁, hs₁, hdb₁, hrun⟩ :=
      runs_processBlock_of_error hs hactive (hnewListFor.trans hbuild) false
    rw [runs_bind_of_error hrun]
    refine ⟨fun haccept => ?_, hs₁.rejected hdb₁ _⟩
    obtain ⟨new, hnew⟩ := haccept.builds hactive
    rw [hbuild] at hnew
    cases hnew
  | ok new =>
    obtain ⟨s₁, hrun, hconnected, hback⟩ :=
      exists_runs_active sorter hs hfresh hactive htip hne htxs hpasses hbuild
    obtain ⟨result, s₂, hcheck, hs₂, hdb₂, hresult⟩ :=
      exists_runs_rootCheck hconnected.coherent (suffix_cons block chain) env block checked
    have hsame : s₁.evoDb.newListFor env block chain = buildNewListFromBlock env chain block old := by
      rw [← hnewListFor, MnDb.newListFor, MnDb.newListFor, hconnected.kept suffix_rfl]
    rw [runs_bind_of_ok hrun, hcheck]
    cases result with
    | ok =>
      have hcommits := hresult.mp rfl
      refine ⟨⟨hpasses, fun _ => ⟨new, hbuild⟩, fun hchecked => ?_⟩,
        hconnected.check hs₂ hdb₂ hcommits⟩
      rw [← hsame]
      exact hcommits hchecked
    | error e =>
      refine ⟨fun haccept => ?_, hback hs₂ hdb₂⟩
      have hok := hresult.mpr fun hchecked => by
        rw [hsame]
        exact haccept.commits hchecked
      cases hok

end

/-- Before the activation nothing is written, and the coinbase has no payload to check. -/
lemma outcome_inactive (hfresh : block.hash ∉ seen)
    (hinactive : env.isDIP0003Active chain = false) (hpasses : Passes env block chain old) :
    Outcome env hashes sorter block chain seen checked old s
      (runs (afterChecks env hashes sorter block chain checked) s) := by
  have hcoinbase := coinbase_eq_none hinactive hpasses
  have hrun : runs (processBlock env sorter block chain false) s = (.ok (), s) := by
    rw [processBlock, if_pos (by simp [hinactive]), runs_pure]
  obtain ⟨result, s₂, hcheck, hs₂, hdb₂, hresult⟩ :=
    exists_runs_rootCheck (hs.extend hfresh) (suffix_cons block chain) env block checked
  have hcommits : ∀ x, Commits hashes block.coinbase x := by
    intro x
    rw [hcoinbase]
    trivial
  rw [runs_bind_of_ok hrun, hcheck, hresult.mpr fun _ => hcommits _]
  refine ⟨⟨hpasses, fun hactive => ?_, fun _ => hcommits _⟩, hs₂, fun _ => by rw [hdb₂], _,
    hdb₂.symm ▸ tipList_extend hs hfresh, fun hactive => ?_⟩
  all_goals rw [hinactive] at hactive; cases hactive

end

/-- The outcome depends on the old state through its database only. -/
lemma Outcome.rescue {out : Except MnFailure Unit × EvoState} {s₁ : EvoState}
    (hdb : s₁.evoDb = s.evoDb) (h : Outcome env hashes sorter block chain seen checked old s₁ out)
    (f : MnFailure → MnFailure) :
    Outcome env hashes sorter block chain seen checked old s (out.1.mapError f, out.2) := by
  obtain ⟨result, s₂⟩ := out
  cases result with
  | ok => exact ⟨h.1, h.2.coherent, fun hsuffix => by rw [h.2.kept hsuffix, hdb], hdb ▸ h.2.tip⟩
  | error e => exact ⟨h.1, hdb ▸ h.2⟩

variable (env) in
/-- **Connecting a block.** It is accepted exactly if it is acceptable. -/
theorem outcome_processSpecialTxsInBlock (sorter : RegistrationSort) (checked : Bool)
    (hs : Coherent hashes chain seen s) (hfresh : block.hash ∉ seen)
    (htip : TipList s.evoDb chain old) (hne : chain ≠ [])
    (htxs : ∀ tx ∈ block.txs, tx.hash ∉ txids chain) :
    Outcome env hashes sorter block chain seen checked old s
      (runs (processSpecialTxsInBlock env hashes sorter block chain false checked) s) := by
  obtain ⟨result, s₁, hrun, hs₁, hdb₁, hresult⟩ :=
    exists_runs_checkSpecialTxs env block hs htip.listFor
  unfold processSpecialTxsInBlock
  rw [runs_rescue]
  cases result with
  | error e =>
    rw [runs_bind_of_error hrun]
    refine ⟨fun haccept => ?_, hs₁.rejected hdb₁ _⟩
    cases hresult.mpr haccept.passes
  | ok =>
    rw [runs_bind_of_ok hrun]
    have hpasses := hresult.mp rfl
    refine Outcome.rescue hdb₁ ?_ _
    cases hactive : env.isDIP0003Active chain with
    | true => exact outcome_active hs₁ hfresh hactive (hdb₁.symm ▸ htip) hne htxs hpasses
    | false => exact outcome_inactive hs₁ hfresh hactive hpasses

/-- A block that is only checked leaves the database alone. -/
lemma coherent_justCheck (sorter : RegistrationSort) (env : MnEnv) (block : CBlock)
    (hs : Coherent hashes chain seen s) :
    Coherent hashes chain seen
        (runs (processSpecialTxsInBlock env hashes sorter block chain true true) s).2 ∧
      (runs (processSpecialTxsInBlock env hashes sorter block chain true true) s).2.evoDb =
        s.evoDb := by
  have hreads : Reads (Coherent hashes chain seen) EvoState.evoDb
      (checkSpecialTxs env block chain >>= fun _ => processBlock env sorter block chain true) _ :=
    (reads_checkSpecialTxs env block suffix_rfl).bind fun _ => reads_processBlock_justCheck
  have hinv := hreads.inv hs
  have hview := hreads.view hs
  have hassoc : processSpecialTxsInBlock env hashes sorter block chain true true =
      Prog.rescue (caught "failed-procspectxsinblock")
        ((checkSpecialTxs env block chain >>= fun _ => processBlock env sorter block chain true) >>=
          fun _ => checkCbTxMerkleRoots env hashes block chain) := by
    rw [bind_assoc]
    rfl
  rw [hassoc, runs_rescue]
  cases hrun : runs (checkSpecialTxs env block chain >>= fun _ =>
      processBlock env sorter block chain true) s with
  | mk result s₁ =>
    rw [hrun] at hinv hview
    cases result with
    | error e =>
      rw [runs_bind_of_error hrun]
      exact ⟨hinv, hview⟩
    | ok =>
      rw [runs_bind_of_ok hrun]
      have hspec := checkCbTxMerkleRoots_spec env block hinv suffix_rfl
      exact ⟨hspec.1, hspec.2.1.trans hview⟩

end Connect

/-! ## Runs -/

namespace MnNode

variable {env : MnEnv} {hashes : MerkleHashes} {sorter : RegistrationSort} {n n' n'' : MnNode}

/-- What holds of a node at any time. -/
structure Sound (hashes : MerkleHashes) (n : MnNode) : Prop where
  coherent : Coherent hashes n.chain n.seen n.state
  nonempty : n.chain ≠ []
  tip : ∃ l, TipList n.state.evoDb n.chain l

/-- The chain grows, and the lists of its blocks stay. -/
structure Extends (n n' : MnNode) : Prop where
  chain : n.chain <:+ n'.chain
  lists : ∀ {pindex}, pindex <:+ n.chain →
    n'.state.evoDb.listFor pindex = n.state.evoDb.listFor pindex

lemma Extends.refl (n : MnNode) : Extends n n := ⟨suffix_rfl, fun _ => rfl⟩

lemma Extends.trans (h : Extends n n') (h' : Extends n' n'') : Extends n n'' :=
  ⟨h.chain.trans h'.chain, fun hsuffix =>
    (h'.lists (hsuffix.trans h.chain)).trans (h.lists hsuffix)⟩

lemma sound_start (hashes : MerkleHashes) (genesis : CBlock) : Sound hashes (start genesis) := by
  refine ⟨⟨?_, ?_, ?_, ?_, ?_, fun _ => ⟨rfl, rfl, rfl, rfl⟩, rfl⟩, cons_ne_nil _ _, ?_⟩
  · simp [start]
  · simp [start]
  · intro block pprev l _ hcached
    cases hcached
  · intro block pprev diff _ hcached
    cases hcached
  · intro block pprev l _ hsnapshot
    cases hsnapshot
  · exact ⟨.initial genesis.hash 0, rfl, .initial .., fun h hne => absurd rfl hne⟩

/-- Events that change nothing but caches. -/
lemma Sound.withState (hn : Sound hashes n) {s : EvoState}
    (hs : Coherent hashes n.chain n.seen s) (hdb : s.evoDb = n.state.evoDb) :
    Sound hashes { n with state := s } ∧ Extends n { n with state := s } := by
  refine ⟨⟨hs, hn.nonempty, ?_⟩, suffix_rfl, fun _ => by rw [hdb]⟩
  rw [hdb]
  exact hn.tip

variable {block : CBlock} {checked : Bool}

lemma canTry_eq_true (h : n.canTry env block = true) :
    block.hash ∉ n.seen ∧ ∀ tx ∈ block.txs, tx.hash ∉ txids n.chain := by
  simp only [canTry, and_eq_true, not_eq_true', all_eq_true, contains_eq_mem,
    decide_eq_false_iff_not] at h
  exact ⟨h.1.1, h.2⟩

lemma Sound.connectBlock (hn : Sound hashes n) (block : CBlock) (checked : Bool) :
    Sound hashes (n.connectBlock env hashes sorter block checked) ∧
      Extends n (n.connectBlock env hashes sorter block checked) := by
  unfold MnNode.connectBlock
  split
  · next htry =>
    obtain ⟨hfresh, htxs⟩ := canTry_eq_true htry
    obtain ⟨old, htip⟩ := hn.tip
    have houtcome := outcome_processSpecialTxsInBlock env sorter checked hn.coherent hfresh
      htip hn.nonempty htxs
    split
    · next s hrun =>
      rw [hrun] at houtcome
      obtain ⟨-, hconnected⟩ := houtcome
      obtain ⟨l, hl, -⟩ := hconnected.tip
      exact ⟨⟨hconnected.coherent, cons_ne_nil _ _, l, hl⟩, suffix_cons _ _, hconnected.kept⟩
    · next e s hrun =>
      rw [hrun] at houtcome
      exact ⟨⟨houtcome.2, hn.nonempty, hn.tip⟩, suffix_rfl, fun _ => rfl⟩
  · exact ⟨hn, .refl n⟩

variable (env sorter) in
/-- **One event** keeps the node sound and its lists fixed. -/
theorem Sound.step (hn : Sound hashes n) (event : MnEvent) :
    Sound hashes (n.step env hashes sorter event) ∧ Extends n (n.step env hashes sorter event) := by
  cases event with
  | connectBlock block checked => exact hn.connectBlock block checked
  | testBlockValidity block =>
    have hcheck := coherent_justCheck sorter env block hn.coherent
    exact hn.withState hcheck.1 hcheck.2
  | getListForBlock pindex =>
    unfold MnNode.step
    dsimp only
    split
    · next hsuffix =>
      exact hn.withState ((reads_getListForBlockInternal env hsuffix).inv hn.coherent)
        ((reads_getListForBlockInternal env hsuffix).view hn.coherent)
    · exact ⟨hn, .refl n⟩
  | updatedBlockTip =>
    have hs := hn.coherent
    exact hn.withState ⟨hs.nodup, hs.subset, hs.lists, hs.diffs, hs.stamped, hs.confined, hs.root⟩
      rfl
  | doMaintenance =>
    refine hn.withState (hn.coherent.doMaintenance env) ?_
    unfold Evo.doMaintenance
    split <;> rfl
  | restart => exact hn.withState hn.coherent.restart rfl

variable (hn : Sound hashes n)

include hn

variable (env sorter) in
/-- **Whole runs**, by induction on the events. -/
theorem Sound.run (events : List MnEvent) :
    Sound hashes (n.run env hashes sorter events) ∧
      Extends n (n.run env hashes sorter events) := by
  induction events generalizing n with
  | nil => exact ⟨hn, .refl n⟩
  | cons event events ih =>
    have hstep := hn.step env sorter event
    have hrest := ih hstep.1
    exact ⟨hrest.1, hstep.2.trans hrest.2⟩

/-- A lookup returns the list of the database. -/
lemma Sound.listOf_eq (env : MnEnv) {pindex : CBlockIndex}
    (hsuffix : pindex <:+ n.chain) : n.listOf env pindex = n.state.evoDb.listFor pindex := by
  exact (reads_getListForBlockInternal env hsuffix).result hn.coherent

/-- A block by which the chain has grown was acceptable, and is connected. -/
lemma Sound.connected
    (haccepted : (n.connectBlock env hashes sorter block checked).chain = block :: n.chain) :
    (∃ old, Acceptable env hashes block n.chain checked old) ∧
      Connected env hashes sorter block n.chain n.seen checked n.state
        (n.connectBlock env hashes sorter block checked).state := by
  unfold MnNode.connectBlock at haccepted ⊢
  split at haccepted
  · next htry =>
    obtain ⟨hfresh, htxs⟩ := canTry_eq_true htry
    obtain ⟨old, htip⟩ := hn.tip
    have houtcome := outcome_processSpecialTxsInBlock env sorter checked hn.coherent hfresh
      htip hn.nonempty htxs
    rw [if_pos htry]
    cases hrun : runs (processSpecialTxsInBlock env hashes sorter block n.chain false checked)
        n.state with
    | mk result s =>
      rw [hrun] at houtcome haccepted
      cases result with
      | ok => exact ⟨⟨old, houtcome.1⟩, houtcome.2⟩
      | error e => exact absurd haccepted.symm (cons_ne_self block n.chain)
  · exact absurd haccepted.symm (cons_ne_self block n.chain)

/-- What the node returns for a block it has connected, and for its parent, from then on. -/
lemma Sound.exists_built
    (haccepted : (n.step env hashes sorter (.connectBlock block checked)).chain = block :: n.chain)
    (hactive : env.isDIP0003Active n.chain = true) :
    ∃ old new l, n.listOf env n.chain = .ok old ∧
      Built env hashes sorter block n.chain checked old new l ∧
      ∀ after, let n' :=
          (n.step env hashes sorter (.connectBlock block checked)).run env hashes sorter after
        n'.listOf env n.chain = .ok old ∧ n'.listOf env (block :: n.chain) = .ok l := by
  obtain ⟨hn', hstep⟩ := hn.step env sorter (.connectBlock block checked)
  obtain ⟨l, htip, hbuilt⟩ := (hn.connected haccepted).2.tip
  obtain ⟨old, new, hold, hbuilt⟩ := hbuilt hactive
  refine ⟨old, new, l, (hn.listOf_eq env suffix_rfl).trans hold, hbuilt, fun after => ?_⟩
  obtain ⟨hafter, hextends⟩ := hn'.run env sorter after
  have hsuffix := haccepted ▸ hextends.chain
  constructor
  · rw [hafter.listOf_eq env (hstep.trans hextends).chain,
      (hstep.trans hextends).lists suffix_rfl, hold]
  · rw [hafter.listOf_eq env hsuffix, hextends.lists (by rw [haccepted])]
    exact htip.listFor

lemma Sound.connectBlock_of_acceptable (htry : n.canTry env block = true)
    {old : CDeterministicMNList} (htip : TipList n.state.evoDb n.chain old)
    (haccept : Acceptable env hashes block n.chain checked old) :
    (n.connectBlock env hashes sorter block checked).chain = block :: n.chain := by
  obtain ⟨hfresh, htxs⟩ := canTry_eq_true htry
  have houtcome := outcome_processSpecialTxsInBlock env sorter checked hn.coherent hfresh
    htip hn.nonempty htxs
  unfold MnNode.connectBlock
  rw [if_pos htry]
  cases hrun : runs (processSpecialTxsInBlock env hashes sorter block n.chain false checked)
      n.state with
  | mk result s =>
    rw [hrun] at houtcome
    cases result with
    | ok => rfl
    | error e => exact absurd haccept houtcome.1

end MnNode

/-! ## The committed root -/

lemma same_restoredMN (old : CDeterministicMNList) (dmn : CDeterministicMN) :
    CSimplifiedMNListEntry.same (.ofMN (old.restoredMN dmn)) (.ofMN dmn) = true := by
  unfold restoredMN
  split
  · simp [CSimplifiedMNListEntry.same, CBLSLazyPublicKey.same]
  · next fromPtr _ =>
    -- only the key is another one
    let state := CDeterministicMNStateDiff.restored fromPtr.pdmnState dmn.pdmnState
    have hkey : state.pubKeyOperator.get = dmn.pdmnState.pubKeyOperator.get :=
      CDeterministicMNStateDiff.get_restored ..
    change CSimplifiedMNListEntry.same
      { CSimplifiedMNListEntry.ofMN dmn with pubKeyOperator := state.pubKeyOperator } _ = true
    simp [CSimplifiedMNListEntry.same, CSimplifiedMNListEntry.ofMN, CBLSLazyPublicKey.same, hkey]

/-- A key in its other scheme leaves the root as it is. -/
lemma calcMerkleRoot_restoredMN (hashes : MerkleHashes) {old new l : CDeterministicMNList}
    (hget : ∀ k, l.getMN k = (new.getMN k).map old.restoredMN) :
    CSimplifiedMNList.calcMerkleRoot hashes (.ofList l) =
      CSimplifiedMNList.calcMerkleRoot hashes (.ofList new) := by
  unfold CSimplifiedMNList.calcMerkleRoot
  rw [CSimplifiedMNList.ofList_eq, CSimplifiedMNList.ofList_eq,
    CSimplifiedMNList.sortedMNs_map (mns_map hget) fun _ _ => restoredMN_proTxHash, map_map, map_map,
    map_map]
  congr 1
  exact map_congr_left fun dmn _ =>
    CSimplifiedMNListEntry.calcHash_eq_of_same hashes (same_restoredMN old dmn)

/-- **The root of a connected block** is that of the list kept for it exactly if the bans
of the block take no one to the highest penalty. -/
theorem Built.root_iff {env : MnEnv} {hashes : MerkleHashes} {sorter : RegistrationSort}
    {block : CBlock} {chain : CBlockIndex} {old new l : CDeterministicMNList}
    (hfree : hashes.NoCollision) (hbuilt : Built env hashes sorter block chain true old new l)
    {cbTx : CCbTx} (hcoinbase : block.coinbase = .cbTx cbTx) :
    (CSimplifiedMNList.calcMerkleRoot hashes (.ofList l)).1 = cbTx.merkleRootMNList ↔
      new.bansSome sorter (nHeight (block :: chain)) = false := by
  -- the coinbase commits to the list before the bans
  have hcommits := hbuilt.commits rfl
  rw [hcoinbase] at hcommits
  obtain ⟨committed, hnew, hroot⟩ := hcommits
  cases hnew
  obtain ⟨change, rfl | ⟨hquiet, rfl⟩, hget⟩ := hbuilt.list
  · have hiff := calcMerkleRoot_banOldNodes_iff hfree hbuilt.height_ne hget hbuilt.indexed
    rwa [hroot] at hiff
  · rw [calcMerkleRoot_restoredMN hashes hget, hroot, bansSome, hquiet]
    exact iff_of_true rfl rfl

end HootChain.Evo

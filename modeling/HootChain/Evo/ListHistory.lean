import HootChain.Evo.CommittedRoot

/-!
# What Later Lists Keep of a Masternode

A masternode is confirmed once, and its collateral is fixed by its registration. As long as
it is listed, later lists have it with the same collateral and, once it is confirmed, with
the same confirmation, whatever the blocks in between hold.
-/

namespace HootChain.Evo

open Primitives Option List CBlockIndex

/-- The collateral of a masternode, and its confirmation. -/
def CDeterministicMN.confirmation (dmn : CDeterministicMN) : COutPoint × Uint256 × Uint256 :=
  (dmn.collateralOutpoint, dmn.pdmnState.confirmedHash, dmn.pdmnState.confirmedHashWithProRegTxHash)

namespace CDeterministicMNList

/-! ## The steps of a block -/

/-- The masternodes of `l` that were confirmed have kept collateral and confirmation in `cur`,
as far as they are still there. -/
structure Kept (l cur : CDeterministicMNList) : Prop where
  proTxHash_eq : ∀ {h dmn}, cur.getMN h = some dmn → dmn.proTxHash = h
  same : ∀ {h dmn dmn'}, l.getMN h = some dmn → dmn.pdmnState.confirmedHash ≠ 0 →
    cur.getMN h = some dmn' → dmn'.confirmation = dmn.confirmation

section Steps

variable {l old cur cur' : CDeterministicMNList} {env : MnEnv} {pindexPrev : CBlockIndex}

lemma Kept.refl (hl : l.WellIndexed) : Kept l l := by
  refine ⟨hl.proTxHash_eq, fun hget _ hget' => ?_⟩
  rw [hget] at hget'
  cases hget'
  rfl

/-- One step. None of the transactions registers a masternode of `l` once more. -/
lemma Kept.step (hk : Kept l cur) {txs : List CTransaction}
    (hfresh : ∀ tx ∈ txs, l.getMN tx.hash = none) (hstep : Step txs cur cur') : Kept l cur' := by
  refine ⟨hstep.keyed hk.proTxHash_eq, fun {k first mn} hfirst hconfirmed hmn => ?_⟩
  cases hstep with
  | @update h dmn state hget hstate hrun =>
    obtain ⟨dmn', hget', hrun⟩ := updateMNByHash_eq_ok.mp hrun
    cases hget.symm.trans hget'
    rw [getMN_updateMN hrun, hk.proTxHash_eq hget] at hmn
    split at hmn
    case isTrue heq =>
      cases hmn
      subst heq
      -- the masternode is confirmed, so the update leaves its confirmation alone
      have hsame := hk.same hfirst hconfirmed hget
      simp only [CDeterministicMN.confirmation, Prod.mk.injEq] at hsame ⊢
      obtain ⟨hcollateral, hhash, hwith⟩ := hsame
      obtain ⟨hhash', hwith'⟩ := hstate.confirmed (hhash.trans_ne hconfirmed)
      exact ⟨hcollateral, hhash'.trans hhash, hwith'.trans hwith⟩
    case isFalse => exact hk.same hfirst hconfirmed hmn
  | remove hget hrun => exact hk.same hfirst hconfirmed (getMN_of_removeMN hrun hmn)
  | @register tx _ _ _ _ htx hpayload hreplaced hrun =>
    rw [getMN_addMN hrun] at hmn
    split at hmn
    case isTrue heq =>
      rw [heq, hfresh tx htx] at hfirst
      cases hfirst
    case isFalse => exact hk.same hfirst hconfirmed (getMN_of_removeReplaced hreplaced hmn)

/-- **One block.** -/
theorem Kept.buildNewListFromBlock (hk : Kept l old) {block : CBlock}
    (hfresh : ∀ tx ∈ block.txs, l.getMN tx.hash = none)
    (hrun : buildNewListFromBlock env pindexPrev block old = .ok cur) : Kept l cur := by
  have hsteps := steps_buildNewListFromBlock hk.proTxHash_eq hrun
  clear hrun
  induction hsteps with
  | refl => exact ⟨hk.proTxHash_eq, hk.same⟩
  | tail _ hstep ih => exact ih.step hfresh hstep

lemma confirmation_afterBans (sorter : RegistrationSort) (nHeight : Int)
    (l : CDeterministicMNList) (dmn : CDeterministicMN) :
    (l.afterBans sorter nHeight dmn).confirmation = dmn.confirmation ∧
      (l.afterBans sorter nHeight dmn).proTxHash = dmn.proTxHash := by
  unfold afterBans punishedState CDeterministicMNState.banIfNotBanned
  dsimp only
  split_ifs <;> exact ⟨rfl, rfl⟩

lemma confirmation_restoredMN (l : CDeterministicMNList) (dmn : CDeterministicMN) :
    (l.restoredMN dmn).confirmation = dmn.confirmation ∧
      (l.restoredMN dmn).proTxHash = dmn.proTxHash := by
  unfold restoredMN
  split <;> exact ⟨rfl, rfl⟩

/-- The bans of `ProcessBlock` follow. -/
lemma Kept.block (hk : Kept l old) {hashes : MerkleHashes} {sorter : RegistrationSort}
    {block : CBlock} {checked : Bool} (hfresh : ∀ tx ∈ block.txs, l.getMN tx.hash = none)
    (hbuilt : Built env hashes sorter block pindexPrev checked old cur cur') : Kept l cur' := by
  have hnew := hk.buildNewListFromBlock hfresh hbuilt.build
  obtain ⟨change, hchange, hlist⟩ := hbuilt.list
  have hsame : ∀ dmn, (change dmn).confirmation = dmn.confirmation ∧
      (change dmn).proTxHash = dmn.proTxHash := by
    rcases hchange with rfl | ⟨-, rfl⟩
    · exact confirmation_afterBans _ _ _
    · exact confirmation_restoredMN _
  refine ⟨fun {h dmn} hget => ?_, fun {h first dmn} hfirst hconfirmed hget => ?_⟩
  all_goals
    rw [hlist, map_eq_some_iff] at hget
    obtain ⟨mn, hmn, rfl⟩ := hget
  · exact (hsame mn).2.trans (hnew.proTxHash_eq hmn)
  · exact (hsame mn).1.trans (hnew.same hfirst hconfirmed hmn)

end Steps

end CDeterministicMNList

/-! ## Nodes -/

namespace MnNode

open CDeterministicMNList

variable {env : MnEnv} {hashes : MerkleHashes} {sorter : RegistrationSort} {n : MnNode}
  {p q : CBlockIndex}

/-- From the activation on, the blocks of the chain have lists, and later ones keep what the
earlier ones say. -/
def Historic (env : MnEnv) (n : MnNode) : Prop :=
  ∀ {p q}, p <:+ q → q <:+ n.chain → p ≠ [] → env.isDIP0003Active p = true →
    ∃ l l', TipList n.state.evoDb p l ∧ n.state.evoDb.listFor q = .ok l' ∧ Kept l l'

/-- The chain stays, or the block grows it that was tried. -/
lemma chain_step (event : MnEvent) : (n.step env hashes sorter event).chain = n.chain ∨
    ∃ block checked, event = .connectBlock block checked ∧ n.canTry env block = true ∧
      (n.connectBlock env hashes sorter block checked).chain = block :: n.chain := by
  cases event with
  | connectBlock block checked =>
    simp only [step, connectBlock]
    split
    case isTrue htry =>
      split
      · exact .inr ⟨_, _, rfl, htry, by simp_all⟩
      · exact .inl rfl
    case isFalse => exact .inl rfl
  | getListForBlock pindex =>
    simp only [step]
    split <;> exact .inl rfl
  | _ => exact .inl rfl

lemma isDIP0003Active_of_suffix (hsuffix : p <:+ q) (hp : env.isDIP0003Active p = true) :
    env.isDIP0003Active q = true := by
  have hlength := hsuffix.length_le
  rw [MnEnv.isDIP0003Active, CBlockIndex.nHeight, decide_eq_true_iff] at hp ⊢
  omega

/-- One event. The transactions of a new block are not on the chain yet, and so none of them
registers a masternode again. -/
lemma Historic.step (hn : n.Sound hashes) (h : Historic env n) (event : MnEvent) :
    Historic env (n.step env hashes sorter event) := by
  obtain ⟨-, -, hlists⟩ := hn.step env sorter event
  intro p q hpq hq hne hactive
  have hold : ∀ {q}, p <:+ q → q <:+ n.chain → ∃ l l',
      TipList (n.step env hashes sorter event).state.evoDb p l ∧
        (n.step env hashes sorter event).state.evoDb.listFor q = .ok l' ∧ Kept l l' := by
    intro q hpq hq
    obtain ⟨l, l', hl, hl', hkept⟩ := h hpq hq hne hactive
    exact ⟨l, l', ⟨(hlists (hpq.trans hq)).trans hl.listFor, hl.indexed, hl.known⟩,
      (hlists hq).trans hl', hkept⟩
  rcases chain_step event with hchain | ⟨block, checked, rfl, htry, hchain⟩
  · exact hold hpq (hchain ▸ hq)
  obtain ⟨new, htip, hbuilt⟩ := (hn.connected hchain).2.tip
  change q <:+ (n.connectBlock env hashes sorter block checked).chain at hq
  rw [hchain] at hq
  rcases suffix_cons_iff.mp hq with rfl | hq
  case inr => exact hold hpq hq
  rcases suffix_cons_iff.mp hpq with rfl | hp
  · exact ⟨new, new, htip, htip.listFor, .refl htip.indexed⟩
  obtain ⟨l, l', hl, hl', hkept⟩ := hold hp suffix_rfl
  obtain ⟨old, built, hprev, hbuilt⟩ := hbuilt (isDIP0003Active_of_suffix hp hactive)
  cases hl'.symm.trans ((hlists suffix_rfl).trans hprev)
  refine ⟨l, new, hl, htip.listFor, hkept.block (fun tx htx => ?_) hbuilt⟩
  by_contra hlisted
  obtain ⟨top, htop, hmem⟩ := mem_flatMap.mp (hl.known _ hlisted)
  exact (canTry_eq_true htry).2 tx htx (mem_flatMap.mpr ⟨top, hp.subset htop, hmem⟩)

variable (env hashes sorter) (genesis : CBlock) (events : List MnEvent)

/-- Whole runs, by induction on the events. -/
lemma historic_run : Historic env ((start genesis).run env hashes sorter events) := by
  induction events using reverseRecOn with
  | nil =>
    intro p q hpq hq hne _
    obtain ⟨l, htip⟩ := (sound_start hashes genesis).tip
    obtain rfl : p = [genesis] := (hpq.trans hq).eq_of_length_le (length_pos_iff.mpr hne)
    obtain rfl : q = [genesis] := hq.eq_of_length_le hpq.length_le
    exact ⟨l, l, htip, htip.listFor, .refl htip.indexed⟩
  | append_singleton events event ih =>
    rw [run, foldl_append]
    exact ih.step ((sound_start hashes genesis).run env sorter events).1 event

lemma exists_kept (p q : CBlockIndex) :
    let n := (start genesis).run env hashes sorter events
    p <:+ q → q <:+ n.chain → p ≠ [] → env.isDIP0003Active p = true →
    ∃ l l', n.listOf env p = .ok l ∧ n.listOf env q = .ok l' ∧ l.WellIndexed ∧ Kept l l' := by
  intro n hpq hq hne hactive
  have hn : n.Sound hashes := ((sound_start hashes genesis).run env sorter events).1
  obtain ⟨l, l', hl, hl', hkept⟩ := historic_run env hashes sorter genesis events hpq hq hne hactive
  rw [hn.listOf_eq env hq, hn.listOf_eq env (hpq.trans hq)]
  exact ⟨l, l', hl.listFor, hl', hl.indexed, hkept⟩

/-- **Confirmations.** After any run, the list that the node returns for a block of its chain
has the confirmed masternodes of the list for an earlier block, as far as they are still
there, with the same collateral and confirmation. -/
theorem confirmations_run (p q : CBlockIndex) :
    let n := (start genesis).run env hashes sorter events
    p <:+ q → q <:+ n.chain → p ≠ [] → env.isDIP0003Active p = true →
    ∃ l l', n.listOf env p = .ok l ∧ n.listOf env q = .ok l' ∧ Kept l l' := by
  intro n hpq hq hne hactive
  obtain ⟨l, l', hl, hl', -, hkept⟩ :=
    exists_kept env hashes sorter genesis events p q hpq hq hne hactive
  exact ⟨l, l', hl, hl', hkept⟩

/-- A devnet, where one block confirms a masternode. -/
def devEnv : MnEnv := { mainEnv with params := Consensus.devNetParams }

def laterBlock (nHeight : Nat) (txs : List CTransaction) : CBlock :=
  { hash := nHeight, coinbase := .cbTx ⟨nHeight, 0⟩, txs := txs }

def revocation : CTransaction := { hash := 8, vin := [], payload := .proUpRev (some ⟨7, 0⟩) }

/-- The masternode of `secondBlock` is confirmed by the third block, which the list says from
the fourth on. -/
def confirmedChain : CBlockIndex :=
  [laterBlock 4 [], laterBlock 3 [], secondBlock, firstBlock, genesisBlock]

/-- The fifth block revokes the operator key. -/
def revokedChain : CBlockIndex := laterBlock 5 [revocation] :: confirmedChain

def revokedEvents : List MnEvent :=
  [.connectBlock firstBlock true, .connectBlock secondBlock true,
    .connectBlock (laterBlock 3 []) false, .connectBlock (laterBlock 4 []) false,
    .connectBlock (laterBlock 5 [revocation]) false]

def revokedNode : MnNode :=
  (start genesisBlock).run devEnv pairingHashes insertionSorter revokedEvents

lemma chain_revokedNode : revokedNode.chain = revokedChain := by
  decide +kernel

theorem confirmations_run_revoked : ∃ l l', revokedNode.listOf devEnv confirmedChain = .ok l ∧
    revokedNode.listOf devEnv revokedChain = .ok l' ∧ Kept l l' ∧
      (l.getMN 7).map CDeterministicMN.confirmation = some (⟨7, 0⟩, 3, Nat.pair 7 3) := by
  obtain ⟨l, l', hl, hl', hkept⟩ := confirmations_run devEnv pairingHashes insertionSorter
    genesisBlock revokedEvents confirmedChain revokedChain (suffix_cons ..)
    (chain_revokedNode ▸ suffix_rfl) nofun rfl
  refine ⟨l, l', hl, hl', hkept, ?_⟩
  have hget : ((revokedNode.listOf devEnv confirmedChain).toOption.bind (·.getMN 7)).map
      CDeterministicMN.confirmation = some (⟨7, 0⟩, 3, Nat.pair 7 3) := by
    decide +kernel
  rwa [revokedNode, hl] at hget

/-- **Caches.** Whatever the node does after a run, the list that it returns for a block of
its chain stays. -/
theorem listOf_run (after : List MnEvent) (k : Nat) :
    let n := (start genesis).run env hashes sorter events
    (n.run env hashes sorter after).listOf env (n.chain.drop k) =
      n.listOf env (n.chain.drop k) := by
  intro n
  have hn : n.Sound hashes := ((sound_start hashes genesis).run env sorter events).1
  obtain ⟨hn', hextends⟩ := hn.run env sorter after
  have hsuffix := drop_suffix k n.chain
  rw [hn.listOf_eq env hsuffix, hn'.listOf_eq env (hsuffix.trans hextends.chain)]
  exact hextends.lists hsuffix

end MnNode

end HootChain.Evo

import HootChain.Evo.ListHistory
import HootChain.Llmq.QuorumSnapshot

/-!
# Members of Earlier Cycles (`llmq/utils.cpp`)

The quarters of earlier cycles are decoded from stored snapshots. Whatever these hold, the
members were valid and confirmed masternodes of an earlier list of the chain.
-/

namespace HootChain.Llmq.Rotation

open Evo List MnNode
open Evo.CDeterministicMNList (Kept)

variable {env : RotationEnv} {params : LLMQParams} {past : QuorumCycle}
  {snapshot : CQuorumSnapshot} {mn : CDeterministicMN} {combined : List CDeterministicMN}
  {size numQuorums idx : Nat} {itsk : List Int} {allMns : CDeterministicMNList}

/-- A quarter is made of masternodes of the list that the decoder goes round. -/
lemma mem_of_mem_decodeQuarter (hmem : mn ∈ (decodeQuarter combined size idx itsk).1) :
    mn ∈ combined := by
  induction size generalizing idx itsk with
  | zero => cases hmem
  | succ size ih =>
    rw [decodeQuarter, mem_append] at hmem
    rcases hmem with hfirst | hrest
    · exact mem_of_getElem? (Option.mem_toList.mp hfirst)
    · exact ih hrest

lemma mem_of_mem_decodeQuarters
    (hmem : mn ∈ (decodeQuarters combined size numQuorums idx itsk).flatten) : mn ∈ combined := by
  induction numQuorums generalizing idx itsk with
  | zero => cases hmem
  | succ numQuorums ih =>
    rw [decodeQuarters, flatten_cons, mem_append] at hmem
    exact hmem.elim mem_of_mem_decodeQuarter ih

section

variable (hpast : past.allMns.WellIndexed)

include hpast

lemma PartOf.eligible_of_mem {l : CDeterministicMNList} (hl : PartOf past.allMns l)
    (hmem : mn ∈ eligible l) : mn ∈ eligible past.allMns := by
  obtain ⟨hget, hrest⟩ := (mem_eligible hl.keyed).mp hmem
  exact (mem_eligible hpast.proTxHash_eq).mpr ⟨hl.entries hget, hrest⟩

/-- Whatever a snapshot says, the decoder goes round eligible masternodes of the cycle. -/
lemma eligible_of_mem_sortedCombinedMns (hmem : mn ∈ sortedCombinedMns env past snapshot) :
    mn ∈ eligible past.allMns := by
  -- both lists are filled from the sorted masternodes
  obtain ⟨hused, hunused⟩ : PartOf past.allMns (getMNUsageBySnapshot env past snapshot).1 ∧
      PartOf past.allMns (getMNUsageBySnapshot env past snapshot).2 := by
    refine foldlRecOn _ _ (motive := fun usage : _ × _ => PartOf past.allMns usage.1 ∧
      PartOf past.allMns usage.2) ⟨partOf_emptyList _, partOf_emptyList _⟩
      fun usage ih entry hentry => ?_
    have helig := mem_calculateQuorum.mp (of_mem_zip hentry).1
    have hget := ((mem_eligible hpast.proTxHash_eq).mp helig).1
    split
    · exact ⟨(ih.1.tryAddMN hpast hget).1, ih.2⟩
    split
    · exact ⟨ih.1, (ih.2.tryAddMN hpast hget).1⟩
    · exact ih
  rw [sortedCombinedMns, mem_append, mem_calculateQuorum, mem_calculateQuorum] at hmem
  exact hmem.elim (hunused.eligible_of_mem hpast) (hused.eligible_of_mem hpast)

lemma eligible_of_mem_decoded
    (hmem : mn ∈ (getQuorumQuarterMembersBySnapshot env params past snapshot).flatten) :
    mn ∈ eligible past.allMns := by
  rw [getQuorumQuarterMembersBySnapshot] at hmem
  split at hmem
  · cases hmem
  dsimp only at hmem
  split at hmem
  · simp at hmem
  split at hmem
  · exact eligible_of_mem_sortedCombinedMns hpast (mem_of_mem_decodeQuarters hmem)
  · exact eligible_of_mem_sortedCombinedMns hpast (mem_of_mem_decodeQuarters hmem)
  · simp at hmem
  · simp at hmem

/-- A valid and confirmed masternode of an earlier list. -/
lemma formerMember_of_kept (hkept : Kept past.allMns allMns) (hmem : mn ∈ eligible past.allMns) :
    past.allMns.getMN mn.proTxHash = some mn ∧ FormerMember allMns mn := by
  obtain ⟨hget, hvalid, hconfirmed⟩ := (mem_eligible hpast.proTxHash_eq).mp hmem
  refine ⟨hget, hvalid, hconfirmed, fun dmn hdmn => ?_⟩
  have hsame := hkept.same hget (bne_iff_ne.mp hconfirmed) hdmn
  simp only [CDeterministicMN.confirmation, Prod.mk.injEq] at hsame
  obtain ⟨hcollateral, hhash, hwith⟩ := hsame
  refine ⟨?_, ?_⟩
  · rw [isConfirmed, hhash]
    exact hconfirmed
  · rw [sortKey, sortKey, hcollateral, hwith]

end

/-- **Earlier cycles.** After any run, let `p` be an ancestor of a block `q` of the chain. The
members of the quarters decoded from any snapshot with the list of `p` are masternodes of that
list and former members for the list of `q`. -/
theorem formerMembers_run (mnEnv : MnEnv) (hashes : MerkleHashes) (sorter : RegistrationSort)
    (genesis : CBlock) (events : List MnEvent) (p q : CBlockIndex) (env : RotationEnv)
    (params : LLMQParams) (past : QuorumCycle) (snapshot : CQuorumSnapshot) :
    let n := (start genesis).run mnEnv hashes sorter events
    p <:+ q → q <:+ n.chain → p ≠ [] → mnEnv.isDIP0003Active p = true →
    n.listOf mnEnv p = .ok past.allMns → n.listOf mnEnv q = .ok allMns →
    ∀ mn ∈ (getQuorumQuarterMembersBySnapshot env params past snapshot).flatten,
      past.allMns.getMN mn.proTxHash = some mn ∧ FormerMember allMns mn := by
  intro n hpq hq hne hactive hpast hallMns mn hmem
  obtain ⟨l, l', hl, hl', hindexed, hkept⟩ :=
    exists_kept mnEnv hashes sorter genesis events p q hpq hq hne hactive
  cases hl.symm.trans hpast
  cases hl'.symm.trans hallMns
  exact formerMember_of_kept hindexed hkept (eligible_of_mem_decoded hindexed hmem)

/-- A quarter in which no masternode was used before. -/
def firstQuarters (allMns : CDeterministicMNList) : List (List CDeterministicMN) :=
  getQuorumQuarterMembersBySnapshot sampleEnv llmq_test_dip0024 ⟨24, 0, allMns⟩
    ⟨[false], .noSkipping, []⟩

/-- The member of the quarters is a former member once its operator key is revoked. -/
theorem formerMembers_run_revoked : ∃ l l', revokedNode.listOf devEnv confirmedChain = .ok l ∧
    revokedNode.listOf devEnv revokedChain = .ok l' ∧ memberHashes (firstQuarters l) = [[7], [7]] ∧
    ∀ mn ∈ (firstQuarters l).flatten,
      l.getMN mn.proTxHash = some mn ∧ FormerMember l' mn := by
  have hchain : revokedChain <:+ revokedNode.chain := chain_revokedNode ▸ suffix_rfl
  obtain ⟨l, l', hl, hl', -, -⟩ := exists_kept devEnv pairingHashes insertionSorter genesisBlock
    revokedEvents confirmedChain revokedChain (suffix_cons ..) hchain nofun rfl
  refine ⟨l, l', hl, hl', ?_, formerMembers_run devEnv pairingHashes insertionSorter genesisBlock
    revokedEvents confirmedChain revokedChain sampleEnv llmq_test_dip0024 ⟨24, 0, l⟩ _
    (suffix_cons ..) hchain nofun rfl hl hl'⟩
  have hmembers : (revokedNode.listOf devEnv confirmedChain).toOption.map
      (memberHashes ∘ firstQuarters) = some [[7], [7]] := by
    decide +kernel
  rw [revokedNode, hl] at hmembers
  exact Option.some.inj hmembers

end HootChain.Llmq.Rotation

import HootChain.Evo.NewList

/-!
# Blocks Without Special Transactions

A block that has only a coinbase confirms masternodes, lowers penalties and records a
payment. None of this can fail on a list whose maps fit together, and none of it bans
or revives a masternode.
-/

namespace HootChain.Evo

open Primitives Foundation List

namespace CDeterministicMNList

open CDeterministicMN

/-- The state has the same keys and standing. -/
structure Steady (state state' : CDeterministicMNState) : Prop where
  keys : SameKeys state state'
  banHeight : state'.nPoSeBanHeight = state.nPoSeBanHeight
  registeredHeight : state'.nRegisteredHeight = state.nRegisteredHeight
  penalty : 0 ≤ state.nPoSePenalty → 0 ≤ state'.nPoSePenalty

lemma Steady.refl (state : CDeterministicMNState) : Steady state state :=
  ⟨⟨rfl, rfl, rfl⟩, rfl, rfl, id⟩

lemma Steady.trans {s₁ s₂ s₃ : CDeterministicMNState} (h₁₂ : Steady s₁ s₂)
    (h₂₃ : Steady s₂ s₃) : Steady s₁ s₃ :=
  ⟨h₁₂.keys.trans h₂₃.keys, h₂₃.banHeight.trans h₁₂.banHeight,
    h₂₃.registeredHeight.trans h₁₂.registeredHeight, fun h => h₂₃.penalty (h₁₂.penalty h)⟩

/-- The lists have the same masternodes, in the same standing. -/
structure Quiet (l l' : CDeterministicMNList) : Prop where
  sameCores : SameCores l l'
  steady : ∀ {h dmn dmn'}, l.getMN h = some dmn → l'.getMN h = some dmn' →
    Steady dmn.pdmnState dmn'.pdmnState

section Quiet

variable {l l' l'' cur : CDeterministicMNList} {h : Uint256} {dmn : CDeterministicMN}
  {state : CDeterministicMNState} {env : MnEnv} {pindexPrev : CBlockIndex}

lemma Quiet.refl (l : CDeterministicMNList) : Quiet l l := by
  refine ⟨.refl l, fun hget hget' => ?_⟩
  cases hget.symm.trans hget'
  exact Steady.refl _

lemma Quiet.trans (h₁ : Quiet l l') (h₂ : Quiet l' l'') : Quiet l l'' := by
  refine ⟨h₁.sameCores.trans h₂.sameCores, fun hget hget'' => ?_⟩
  obtain ⟨dmn', hget', -⟩ := h₁.sameCores.getMN hget
  exact (h₁.steady hget hget').trans (h₂.steady hget' hget'')

/-- An update to a state in the same standing goes through. -/
lemma Quiet.exists_updateMN (hq : Quiet l cur) {mn : CDeterministicMN}
    (hget : l.getMN mn.proTxHash = some dmn) (hcore : mn.core = dmn.core)
    (hkeys : SameKeys mn.pdmnState state) (hsteady : Steady dmn.pdmnState state) :
    ∃ next, cur.updateMN mn state = .ok next ∧ Quiet l next := by
  refine ⟨_, updateMN_sameKeys hkeys, ?_, ?_⟩
  · refine hq.sameCores.trans (sameCores_updateMN ?_ hkeys (updateMN_sameKeys hkeys))
    rw [hq.sameCores.core, hget, Option.map_some, hcore]
  · intro k old new hold hnew
    rw [getMN_updateMN (updateMN_sameKeys hkeys)] at hnew
    split at hnew
    · next hk =>
      cases hnew
      rw [hk, hget] at hold
      cases hold
      exact hsteady
    · exact hq.steady hold hnew

variable (hl : l.WellIndexed)

include hl

lemma Quiet.exists_updateMNByHash (hq : Quiet l cur)
    (hget : l.getMN h = some dmn) (hsteady : Steady dmn.pdmnState state) :
    ∃ next, cur.updateMNByHash h state = .ok next ∧ Quiet l next := by
  obtain ⟨mn, hmn, hcore⟩ := hq.sameCores.getMN hget
  have hkeys : SameKeys mn.pdmnState state := (sameKeys_of_core hcore.symm).trans hsteady.keys
  have hhash : mn.proTxHash = h := (hl.congr hq.sameCores).proTxHash_eq hmn
  obtain ⟨next, hrun, hnext⟩ := hq.exists_updateMN (hhash.symm ▸ hget) hcore.symm hkeys hsteady
  exact ⟨next, updateMNByHash_eq_ok.mpr ⟨mn, hmn, hrun⟩, hnext⟩

lemma Quiet.exists_confirmMN (hq : Quiet l cur) (hmem : dmn ∈ l.mns) :
    ∃ next, confirmMN env pindexPrev cur dmn = .ok next ∧ Quiet l next := by
  unfold confirmMN
  split
  · exact ⟨cur, rfl, hq⟩
  · split
    · refine hq.exists_updateMNByHash hl (hl.mem_mns_iff.mp hmem) ?_
      exact ⟨⟨rfl, rfl, rfl⟩, rfl, rfl, id⟩
    · exact ⟨cur, rfl, hq⟩

lemma exists_decreaseScores : ∃ next, l.decreaseScores = .ok next ∧ Quiet l next := by
  refine exists_foldlM (Quiet l) (fun cur dmn hmem hq => ?_) (.refl l)
  obtain ⟨hvalid, hpenalty⟩ := mem_filter.mp hmem
  have hget := hl.mem_mns_iff.mp (mem_filter.mp hvalid).1
  refine hq.exists_updateMN hget rfl ⟨rfl, rfl, rfl⟩ ⟨⟨rfl, rfl, rfl⟩, rfl, rfl, fun _ => ?_⟩
  exact Int.sub_nonneg_of_le (of_decide_eq_true hpenalty)

variable (env pindexPrev) in
lemma exists_recordPayment (payee : Option CDeterministicMN) :
    ∃ next, recordPayment env pindexPrev payee l = .ok next ∧ Quiet l next := by
  unfold recordPayment
  split
  · exact ⟨l, rfl, .refl l⟩
  · split
    · exact ⟨l, rfl, .refl l⟩
    · next dmn hget =>
      refine (Quiet.refl l).exists_updateMNByHash hl hget ?_
      exact ⟨⟨rfl, rfl, rfl⟩, rfl, rfl, id⟩

lemma Quiet.exists_resetPayments (hq : Quiet l cur) (hmem : dmn ∈ l.mns)
    (payee : Option CDeterministicMN) :
    ∃ next, resetPayments env pindexPrev payee cur dmn = .ok next ∧ Quiet l next := by
  unfold resetPayments
  split
  · exact ⟨cur, rfl, hq⟩
  · split
    · exact ⟨cur, rfl, hq⟩
    · split
      · exact ⟨cur, rfl, hq⟩
      · refine hq.exists_updateMNByHash hl (hl.mem_mns_iff.mp hmem) ?_
        exact ⟨⟨rfl, rfl, rfl⟩, rfl, rfl, id⟩

omit hl in
/-- **Empty blocks.** A block without transactions besides its coinbase has a list, with the
masternodes of the old one in the same standing. -/
theorem exists_buildNewListFromBlock (env : MnEnv) (pindexPrev : CBlockIndex) (hl : l.WellIndexed)
    {block : CBlock} (htxs : block.txs = []) :
    ∃ new, buildNewListFromBlock env pindexPrev block l = .ok new ∧
      Quiet { l with blockHash := 0, nHeight := CBlockIndex.nHeight pindexPrev + 1 } new := by
  have hl₀ := hl.stamped 0 (CBlockIndex.nHeight pindexPrev + 1)
  obtain ⟨l₁, hconfirm, hq₁⟩ := exists_foldlM (f := confirmMN env pindexPrev) (Quiet _)
    (fun cur dmn hmem hq => hq.exists_confirmMN hl₀ hmem) (.refl _)
  have hl₁ := hl₀.congr hq₁.sameCores
  obtain ⟨l₂, hdecrease, hq₂⟩ := exists_decreaseScores hl₁
  have hl₂ := hl₁.congr hq₂.sameCores
  obtain ⟨l₃, hpayment, hq₃⟩ := exists_recordPayment env pindexPrev hl₂
    (getMNPayee env l pindexPrev)
  have hl₃ := hl₂.congr hq₃.sameCores
  obtain ⟨l₄, hreset, hq₄⟩ := exists_foldlM
    (f := resetPayments env pindexPrev (getMNPayee env l pindexPrev)) (Quiet l₃)
    (fun cur dmn hmem hq => hq.exists_resetPayments hl₃ hmem _) (.refl l₃)
  refine ⟨l₄, ?_, ((hq₁.trans hq₂).trans hq₃).trans hq₄⟩
  simp only [buildNewListFromBlock, htxs, flatMap_nil, foldlM_nil, bind_eq_ok]
  exact ⟨l₁, hconfirm, l₂, hdecrease, l₂, rfl, l₂, rfl, l₃, hpayment, hreset⟩

end Quiet

end CDeterministicMNList

end HootChain.Evo

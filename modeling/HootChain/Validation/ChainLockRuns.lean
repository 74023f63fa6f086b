import HootChain.Validation.ActivateBestChain

/-!
# ChainLocks over Runs of a Node

Headers, blocks and ChainLocks arrive in any order, and `EnforceBestChainLock` runs whenever
the scheduler gets to it. A block that was locked and active stays in the active chain as long
as no block is processed while the active chain conflicts with the best ChainLock.
-/

namespace HootChain.Validation.CChainState

open Foundation.Branches List Function Option Nat

/-! ## Headers -/

section Headers

variable {env : ChainEnv} {s s' : CChainState} {p q m : CBlockIndex}

lemma workKey_congr {data data' : CBlockIndex → BlockData} (h : data' p = data p) :
    workKey env data' p = workKey env data p := by
  rw [workKey, workKey, h]

variable (h : Sound env s)

include h

/-- Only the data of linked blocks and the flags of known ones play a role. -/
lemma Sound.transfer {blockIndex unlinked : List CBlockIndex}
    {flags : CBlockIndex → BlockFlags} {data : CBlockIndex → BlockData}
    {bestChainLock bestChainLockBlockIndex : Option CBlockIndex}
    (hdata : ∀ p, data p = s.data p ∨
      (data p).haveTxsDownloaded = false ∧ (s.data p).haveTxsDownloaded = false)
    (hindex : ∀ p ∈ s.blockIndex, p ∈ blockIndex ∧ flags p = s.flags p)
    (hparent : ∀ p ∈ blockIndex, p ≠ [] ∧ (p = [env.genesis] ∨ p.pprev ∈ blockIndex)) :
    Sound env { s with
      blockIndex, flags, data, unlinked, bestChainLock, bestChainLockBlockIndex } := by
  -- the same blocks are linked, and for these the data is the same
  have hlinked : ∀ p, (data p).haveTxsDownloaded = (s.data p).haveTxsDownloaded := by
    intro p
    rcases hdata p with heq | ⟨hnot', hnot⟩
    · rw [heq]
    · rw [hnot', hnot]
  have hsame : ∀ {p}, s.Linked p → data p = s.data p := by
    intro p hp
    refine (hdata p).resolve_right fun ⟨_, hnot⟩ => ?_
    rw [hp] at hnot
    cases hnot
  have hold : ∀ {p}, (data p).haveTxsDownloaded = true → s.Linked p :=
    fun {p} hp => (hlinked p).symm.trans hp
  have htree := h.tree
  refine ⟨⟨fun hnil => (hparent _ hnil).1 rfl, fun {p} hp => (hparent p hp).2,
    (hlinked _).trans htree.genesis_linked, fun {p} hp => ?_, fun {p} hp => ?_, fun {p} hp => ?_,
    fun {p} hp => ?_, fun {p q} hp hq heq => ?_⟩, h.tip_ne, h.tip_ne, fun {p} hne hp => ?_,
    fun {p} hp => (hlinked p).trans (h.linked hp), fun {p} hp => ?_, fun {p} hcand hle _ => ?_⟩
  · exact (hindex p (htree.linked_mem (hold hp))).1
  · simp [hsame (hold hp), htree.linked_data (hold hp)]
  · exact (htree.linked_parent (hold hp)).imp_right (hlinked _).trans
  · simp [hsame (hold hp), htree.sequence_lt (hold hp)]
  · simp only [hsame (hold hp), hsame (hold hq)] at heq
    exact htree.sequence_inj (hold hp) (hold hq) heq
  · have hset := h.settled hne hp
    have hflags := (hindex p (htree.linked_mem hset.linked)).2
    refine ⟨(hlinked p).trans hset.linked, ?_, hset.connectable⟩
    simp only [hflags, hset.unmarked]
  · obtain ⟨hmem, hvalid⟩ := h.failed hp
    exact ⟨(hindex p hmem).1, by simp only [(hindex p hmem).2, hvalid]⟩
  · have hlink := hold (isCandidate_iff.mp hcand).2.2
    rw [workKey_congr (hsame h.settled_tip.linked), workKey_congr (hsame hlink)] at hle
    simp only [isCandidate_iff, hsame hlink, (hindex p (htree.linked_mem hlink)).2] at hcand
    exact h.complete (isCandidate_iff.mpr hcand) hle hle

lemma Sound.parents : ∀ p ∈ s.blockIndex, p ≠ [] ∧ (p = [env.genesis] ∨ p.pprev ∈ s.blockIndex) :=
  fun _ hp => ⟨h.tree.ne_nil hp, h.tree.parent_mem hp⟩

/-- ChainLocks, and the blocks that wait for their parents. -/
lemma Sound.setLocks (best index : Option CBlockIndex)
    (unlinked : List CBlockIndex) : Sound env { s with
      bestChainLock := best, bestChainLockBlockIndex := index, unlinked := unlinked } :=
  h.transfer (fun _ => .inl rfl) (fun _ hp => ⟨hp, rfl⟩) h.parents

lemma Sound.not_linked_of_not_mem (hnew : p ∉ s.blockIndex) :
    (s.data p).haveTxsDownloaded = false := by
  by_contra hlinked
  exact hnew (h.tree.linked_mem (eq_true_of_ne_false hlinked))

lemma Sound.addToBlockIndex (hnew : p ∉ s.blockIndex)
    (hparent : p.pprev ∈ s.blockIndex) (flags : BlockFlags) :
    Sound env (s.addToBlockIndex p flags) := by
  refine h.transfer (fun q => ?_) (fun q hq => ?_) fun q hq => ?_
  · by_cases hqp : q = p
    · rw [hqp]
      refine .inr ⟨?_, h.not_linked_of_not_mem hnew⟩
      simp
    · exact .inl (update_of_ne hqp _ _)
  · refine ⟨mem_append_left _ hq, update_of_ne ?_ _ _⟩
    rintro rfl
    exact hnew hq
  · rcases mem_append.mp hq with hq | hq
    · exact ⟨(h.parents q hq).1, (h.parents q hq).2.imp_right (mem_append_left _)⟩
    · rw [mem_singleton.mp hq]
      refine ⟨?_, .inr (mem_append_left _ hparent)⟩
      rintro rfl
      exact h.tree.nil_not_mem hparent

lemma Sound.markFailedChildren (hfailed : s.failedAncestor m = some q) :
    Sound env (s.setFlags (above q m) fun flags => { flags with failedChild := true }) := by
  unfold failedAncestor at hfailed
  split at hfailed
  · cases hfailed
  obtain ⟨hmem, hvalid⟩ := h.failed (mem_of_find?_eq_some hfailed)
  have hfound := find?_some hfailed
  have hsuffix : q <:+ m := by simpa using hfound
  have hmarked : (s.flags q).failed = true := by
    rw [BlockFlags.failed, hvalid, Bool.true_or]
  have hset : ∀ flags : BlockFlags, { flags with failedChild := true }.failed = true ∨
      { flags with failedChild := true }.conflictChainlock = true := by
    simp [BlockFlags.failed]
  exact Steady.markAbove h (h.tree.ne_nil hmem) hsuffix (.inl hmarked) hset
    (fun flags hflag => hflag) (sameTree_setFlags _ _ _) rfl (fun p => rfl) (fun p hp => hp)
    (fun p hp _ => hp) rfl

end Headers

/-! ## Blocks -/

section Blocks

variable {env : ChainEnv} {s s' : CChainState} {p q : CBlockIndex} {ps : List CBlockIndex}

/-- Blocks with data whose ancestors are not all there. -/
structure Waiting (s : CChainState) (ps : List CBlockIndex) : Prop where
  nodup : ps.Nodup
  waits : ∀ {p}, p ∈ ps → p ∈ s.blockIndex ∧ (s.data p).haveData = true ∧
    (s.data p).haveTxsDownloaded = false

/-- The data of a block that is linked. -/
def linkedData (s : CChainState) (p : CBlockIndex) : CBlockIndex → BlockData :=
  update s.data p { s.data p with haveTxsDownloaded := true, nSequenceId := s.nBlockSequenceId }

lemma linkBlock_eq (env : ChainEnv) (s : CChainState) (p : CBlockIndex) :
    ∃ candidates, s.linkBlock env p = { s with
        data := s.linkedData p, candidates, nBlockSequenceId := s.nBlockSequenceId + 1 } ∧
      ∀ q, q ∈ candidates ↔ q ∈ s.candidates ∨ q = p ∧
        workComparator env (s.linkedData p) p s.tip = false ∧
          (s.flags p).conflictChainlock = false := by
  unfold linkBlock
  dsimp only
  split
  case isTrue hnew => exact ⟨_, rfl, fun q => by simp [linkedData, hnew, or_comm]⟩
  case isFalse hnew =>
    rw [Bool.not_eq_true, Bool.not_eq_true] at hnew
    exact ⟨_, rfl, fun q => ⟨.inl, fun hq => hq.resolve_right fun hq => hnew hq.2⟩⟩

lemma linkedData_self : s.linkedData p p =
    { s.data p with haveTxsDownloaded := true, nSequenceId := s.nBlockSequenceId } :=
  update_self ..

lemma linkedData_of_ne (h : q ≠ p) : s.linkedData p q = s.data q := update_of_ne h ..

lemma linked_linkedData : (s.linkedData p q).haveTxsDownloaded = true ↔
    q = p ∨ q ≠ p ∧ s.Linked q := by
  by_cases hqp : q = p
  · rw [hqp, linkedData_self]
    simp
  · rw [linkedData_of_ne hqp]
    simp [hqp]

/-- Everything else stays. -/
structure SameChain (s s' : CChainState) : Prop where
  tip_eq : s'.tip = s.tip
  flags_eq : s'.flags = s.flags
  blockIndex_eq : s'.blockIndex = s.blockIndex
  failedBlocks_eq : s'.failedBlocks = s.failedBlocks
  bestChainLock_eq : s'.bestChainLock = s.bestChainLock
  bestChainLockBlockIndex_eq : s'.bestChainLockBlockIndex = s.bestChainLockBlockIndex

lemma SameChain.trans {s₁ s₂ s₃ : CChainState} (h : SameChain s₁ s₂) (h' : SameChain s₂ s₃) :
    SameChain s₁ s₃ :=
  ⟨h'.1.trans h.1, h'.2.trans h.2, h'.3.trans h.3, h'.4.trans h.4, h'.5.trans h.5, h'.6.trans h.6⟩

/-- A block whose parent is linked gets the next number, and is a candidate if it is good
enough. -/
lemma Sound.linkBlock (h : Sound env s) (hmem : p ∈ s.blockIndex)
    (hdata : (s.data p).haveData = true) (hnot : (s.data p).haveTxsDownloaded = false)
    (hparent : s.Linked p.pprev) : Sound env (s.linkBlock env p) := by
  obtain ⟨candidates, heq, hcands⟩ := linkBlock_eq env s p
  rw [heq]
  have htree := h.tree
  have hne : ∀ {q}, s.Linked q → q ≠ p := by
    rintro q hq rfl
    cases hnot.symm.trans hq
  -- the linked blocks are those from before, and the new one
  have hkeep : ∀ {q}, s.Linked q → (s.linkedData p q).haveTxsDownloaded = true :=
    fun hq => linked_linkedData.mpr (.inr ⟨hne hq, hq⟩)
  refine ⟨⟨htree.nil_not_mem, htree.parent_mem, hkeep htree.genesis_linked, fun {q} hq => ?_,
    fun {q} hq => ?_, fun {q} hq => ?_, fun {q} hq => ?_, fun {q r} hq hr heq => ?_⟩, h.tip_ne,
    h.tip_ne, fun {q} hqne hq => ?_, fun {q} hq => ?_, h.failed, fun {q} hcand hle _ => ?_⟩
  · rcases linked_linkedData.mp hq with rfl | ⟨-, hq⟩
    · exact hmem
    · exact htree.linked_mem hq
  · show (s.linkedData p q).haveData = true
    rcases linked_linkedData.mp hq with rfl | ⟨hqp, hq⟩
    · rw [linkedData_self]
      exact hdata
    · rw [linkedData_of_ne hqp]
      exact htree.linked_data hq
  · rcases linked_linkedData.mp hq with rfl | ⟨-, hq⟩
    · exact .inr (hkeep hparent)
    · exact (htree.linked_parent hq).imp_right hkeep
  · show (s.linkedData p q).nSequenceId < s.nBlockSequenceId + 1
    rcases linked_linkedData.mp hq with rfl | ⟨hqp, hq⟩
    · rw [linkedData_self]
      exact lt_succ_self _
    · rw [linkedData_of_ne hqp]
      exact (htree.sequence_lt hq).trans (lt_succ_self _)
  · have heq : (s.linkedData p q).nSequenceId = (s.linkedData p r).nSequenceId := heq
    rcases linked_linkedData.mp hq with hqp | ⟨hqp, hq⟩ <;>
      rcases linked_linkedData.mp hr with hrp | ⟨hrp, hr⟩
    · exact hqp.trans hrp.symm
    · rw [hqp, linkedData_self, linkedData_of_ne hrp] at heq
      exact absurd heq.symm (htree.sequence_lt hr).ne
    · rw [hrp, linkedData_self, linkedData_of_ne hqp] at heq
      exact absurd heq (htree.sequence_lt hq).ne
    · rw [linkedData_of_ne hqp, linkedData_of_ne hrp] at heq
      exact htree.sequence_inj hq hr heq
  · have hset := h.settled hqne hq
    exact ⟨hkeep hset.linked, hset.unmarked, hset.connectable⟩
  · rcases (hcands q).mp hq with hq | ⟨rfl, -⟩
    · exact hkeep (h.linked hq)
    · exact linked_linkedData.mpr (.inl rfl)
  · have hcand := isCandidate_iff.mp hcand
    refine (hcands q).mpr ?_
    rcases linked_linkedData.mp hcand.2.2 with rfl | ⟨hqp, hq⟩
    · exact .inr ⟨rfl, workComparator_eq_false_iff.mpr hle, hcand.1.not_conflicting⟩
    · have hsame : s.linkedData p q = s.data q := linkedData_of_ne hqp
      rw [workKey_congr (linkedData_of_ne (hne h.settled_tip.linked)), workKey_congr hsame] at hle
      dsimp only at hcand
      rw [hsame] at hcand
      exact .inl (h.complete (isCandidate_iff.mpr hcand) hle hle)

/-- The children of a linked block leave the blocks that wait, and join the queue. -/
lemma Waiting.linkBlock (h : Waiting s (p :: ps ++ s.unlinked)) :
    Waiting { s.linkBlock env p with
        unlinked := (s.linkBlock env p).unlinked.filter (·.pprev ≠ p) }
      (ps ++ (s.linkBlock env p).unlinked.filter (·.pprev = p) ++
        (s.linkBlock env p).unlinked.filter (·.pprev ≠ p)) := by
  obtain ⟨candidates, heq, -⟩ := linkBlock_eq env s p
  rw [heq]
  have hperm : (ps ++ s.unlinked.filter (·.pprev = p) ++ s.unlinked.filter (·.pprev ≠ p)).Perm
      (ps ++ s.unlinked) := by
    rw [append_assoc]
    refine List.Perm.append_left ps ?_
    have hsplit := filter_append_perm (fun q : CBlockIndex => decide (q.pprev = p)) s.unlinked
    simpa only [decide_not] using hsplit
  have hnodup := h.nodup
  rw [cons_append, nodup_cons] at hnodup
  refine ⟨hperm.nodup_iff.mpr hnodup.2, fun {q} hq => ?_⟩
  have hmem := hperm.mem_iff.mp hq
  have hne : q ≠ p := by
    rintro rfl
    exact hnodup.1 hmem
  dsimp only
  rw [linkedData_of_ne hne]
  exact h.waits (mem_cons_of_mem p hmem)

/-- The queue, by induction on its rounds. -/
lemma Sound.linkQueue (h : Sound env s) (fuel : Nat) (hwait : Waiting s (ps ++ s.unlinked))
    (hparents : ∀ p ∈ ps, s.Linked p.pprev) :
    Sound env (linkQueue env fuel ps s) ∧ SameChain s (linkQueue env fuel ps s) ∧
      Waiting (linkQueue env fuel ps s) (linkQueue env fuel ps s).unlinked := by
  induction fuel generalizing ps s with
  | zero => exact ⟨h, ⟨rfl, rfl, rfl, rfl, rfl, rfl⟩, (nodup_append.mp hwait.nodup).2.1,
      fun hp => hwait.waits (mem_append_right _ hp)⟩
  | succ fuel ih =>
    cases ps with
    | nil => exact ⟨h, ⟨rfl, rfl, rfl, rfl, rfl, rfl⟩, hwait⟩
    | cons p ps =>
      obtain ⟨hmem, hdata, hnot⟩ := hwait.waits (mem_append_left _ mem_cons_self)
      rw [forall_mem_cons] at hparents
      have hlinked := h.linkBlock hmem hdata hnot hparents.1
      have hrest := ih (hlinked.setLocks _ _ ((s.linkBlock env p).unlinked.filter (·.pprev ≠ p)))
        hwait.linkBlock fun q hq => ?_
      · obtain ⟨candidates, heq, -⟩ := linkBlock_eq env s p
        have hsame : SameChain s { s.linkBlock env p with
            unlinked := (s.linkBlock env p).unlinked.filter (·.pprev ≠ p) } := by
          rw [heq]
          exact ⟨rfl, rfl, rfl, rfl, rfl, rfl⟩
        exact ⟨hrest.1, hsame.trans hrest.2.1, hrest.2.2⟩
      · obtain ⟨candidates, heq, -⟩ := linkBlock_eq env s p
        rw [heq] at hq ⊢
        by_cases hqp : q.pprev = p
        · exact linked_linkedData.mpr (.inl hqp)
        · refine linked_linkedData.mpr (.inr ⟨hqp, hparents.2 q ?_⟩)
          exact (mem_append.mp hq).resolve_right fun hq =>
            hqp (of_decide_eq_true (mem_filter.mp hq).2)

/-- The data of a block arrives: it becomes a candidate with those that waited for it, or waits
for its parent. -/
lemma Sound.receivedBlockTransactions (h : Sound env s) (hwait : Waiting s s.unlinked)
    (hmem : p ∈ s.blockIndex) (hnew : (s.data p).haveData = false) :
    Sound env (s.receivedBlockTransactions env p) ∧
      SameChain s (s.receivedBlockTransactions env p) ∧
      Waiting (s.receivedBlockTransactions env p) (s.receivedBlockTransactions env p).unlinked := by
  have hnot : (s.data p).haveTxsDownloaded = false := by
    by_contra hlinked
    rw [h.tree.linked_data (eq_true_of_ne_false hlinked)] at hnew
    cases hnew
  have hparent : p.pprev ≠ [] := by
    rcases h.tree.parent_mem hmem with heq | hparent
    · rw [heq, h.tree.genesis_linked] at hnot
      cases hnot
    · exact h.tree.ne_nil hparent
  have hother : ∀ {q}, q ≠ p → (s.receiveData p).data q = s.data q := fun hq => update_of_ne hq ..
  have hself : (s.receiveData p).data p =
      { s.data p with haveData := true, haveTxsDownloaded := false } := update_self ..
  have hsame : SameChain s (s.receiveData p) := ⟨rfl, rfl, rfl, rfl, rfl, rfl⟩
  have hsound : Sound env (s.receiveData p) := by
    refine h.transfer (fun q => ?_) (fun q hq => ⟨hq, rfl⟩) h.parents
    by_cases hqp : q = p
    · rw [hqp]
      exact .inr ⟨congrArg BlockData.haveTxsDownloaded hself, hnot⟩
    · exact .inl (hother hqp)
  -- whoever waits has its data
  have hpnot : p ∉ s.unlinked := by
    intro hp
    rw [(hwait.waits hp).2.1] at hnew
    cases hnew
  have hwaits : ∀ {q}, q = p ∨ q ∈ s.unlinked → q ∈ s.blockIndex ∧
      ((s.receiveData p).data q).haveData = true ∧
        ((s.receiveData p).data q).haveTxsDownloaded = false := by
    intro q hq
    by_cases hqp : q = p
    · rw [hqp, hself]
      exact ⟨hmem, rfl, rfl⟩
    · rw [hother hqp]
      exact hwait.waits (hq.resolve_left hqp)
  rw [CChainState.receivedBlockTransactions]
  split
  case isTrue hlinked =>
    have hqueue : Waiting (s.receiveData p) ([p] ++ s.unlinked) :=
      ⟨nodup_cons.mpr ⟨hpnot, hwait.nodup⟩, fun hq => hwaits (mem_cons.mp hq)⟩
    obtain ⟨hsound', hsame', hwait'⟩ := hsound.linkQueue (s.unlinked.length + 1) hqueue
      fun q hq => by
        rw [mem_singleton.mp hq]
        exact hlinked.resolve_left hparent
    exact ⟨hsound', hsame.trans hsame', hwait'⟩
  case isFalse =>
    split
    case isTrue =>
      refine ⟨hsound.setLocks _ _ _, hsame.trans ⟨rfl, rfl, rfl, rfl, rfl, rfl⟩, ?_,
        fun {q} hq => hwaits ?_⟩
      · refine nodup_append.mpr ⟨hwait.nodup, nodup_singleton p, ?_⟩
        rintro a ha b hb rfl
        exact hpnot (mem_singleton.mp hb ▸ ha)
      · exact (mem_append.mp hq).symm.imp_left mem_singleton.mp
    case isFalse => exact ⟨hsound, hsame, hwait.nodup, fun hq => hwaits (.inr hq)⟩

/-! ## Accepting headers and blocks -/

/-- **The invariant** of a node: the candidates are complete, and the best ChainLock with a
known block is not beyond the best one. -/
structure Inv (env : ChainEnv) (s : CChainState) : Prop where
  sound : Sound env s
  waiting : Waiting s s.unlinked
  lock_mem : ∀ {lock}, s.bestChainLockBlockIndex = some lock → lock ∈ s.blockIndex
  lock_le : ∀ {lock}, s.bestChainLockBlockIndex = some lock →
    ∃ best, s.bestChainLock = some best ∧ lock <:+ best

/-- What the arrival of a block or its header does to the active chain and the locks. -/
structure Arrived (s : CChainState) (p : CBlockIndex) (s' : CChainState) : Prop where
  tip_eq : s'.tip = s.tip
  bestChainLock_eq : s'.bestChainLock = s.bestChainLock
  lock : s'.bestChainLockBlockIndex = s.bestChainLockBlockIndex ∨
    s.bestChainLock = some p ∧ s'.bestChainLockBlockIndex = some p

lemma Arrived.refl (s : CChainState) (p : CBlockIndex) : Arrived s p s := ⟨rfl, rfl, .inl rfl⟩

variable (h : Inv env s)

include h

lemma Inv.acceptedBlockHeader (hmem : p ∈ s.blockIndex) :
    Inv env (s.acceptedBlockHeader p) ∧ Arrived s p (s.acceptedBlockHeader p) := by
  by_cases hbest : s.bestChainLock = some p
  · rw [CChainState.acceptedBlockHeader, if_pos hbest]
    refine ⟨⟨h.sound.setLocks _ _ _, ⟨h.waiting.nodup, h.waiting.waits⟩, fun hlock => ?_,
      fun hlock => ?_⟩, rfl, rfl, .inr ⟨hbest, rfl⟩⟩
    · cases hlock
      exact hmem
    · cases hlock
      exact ⟨p, hbest, suffix_rfl⟩
  · rw [CChainState.acceptedBlockHeader, if_neg hbest]
    exact ⟨h, .refl s p⟩

lemma Inv.addToBlockIndex (hnew : p ∉ s.blockIndex)
    (hparent : p.pprev ∈ s.blockIndex) (flags : BlockFlags) :
    Inv env (s.addToBlockIndex p flags) where
  sound := h.sound.addToBlockIndex hnew hparent flags
  waiting := by
    refine ⟨h.waiting.nodup, fun {q} hq => ?_⟩
    obtain ⟨hmem, hdata, hnot⟩ := h.waiting.waits hq
    have hsame : (s.addToBlockIndex p flags).data q = s.data q := by
      refine update_of_ne ?_ _ _
      rintro rfl
      exact hnew hmem
    rw [hsame]
    exact ⟨mem_append_left _ hmem, hdata, hnot⟩
  lock_mem hlock := mem_append_left _ (h.lock_mem hlock)
  lock_le := h.lock_le

lemma Inv.setFlags {blocks : List CBlockIndex} {set : BlockFlags → BlockFlags}
    (hsound : Sound env (s.setFlags blocks set)) : Inv env (s.setFlags blocks set) :=
  ⟨hsound, ⟨h.waiting.nodup, h.waiting.waits⟩, h.lock_mem, h.lock_le⟩

lemma Inv.acceptBlockHeader (p : CBlockIndex) (headerOk : Bool) :
    Inv env (s.acceptBlockHeader env p headerOk).1 ∧
      Arrived s p (s.acceptBlockHeader env p headerOk).1 ∧
      ((s.acceptBlockHeader env p headerOk).2 = true →
        p ∈ (s.acceptBlockHeader env p headerOk).1.blockIndex) := by
  unfold CChainState.acceptBlockHeader
  split
  case isTrue hgenesis =>
    have hmem : p ∈ s.blockIndex := by
      rw [hgenesis]
      exact h.sound.tree.linked_mem h.sound.tree.genesis_linked
    obtain ⟨hinv, harrived⟩ := h.acceptedBlockHeader hmem
    refine ⟨hinv, harrived, fun _ => ?_⟩
    unfold CChainState.acceptedBlockHeader
    split <;> exact hmem
  split
  case isTrue hmem => exact ⟨h, .refl s p, fun _ => hmem⟩
  case isFalse hnew =>
  split
  · exact ⟨h, .refl s p, nofun⟩
  split
  · exact ⟨h, .refl s p, nofun⟩
  case isFalse hparent =>
  rw [not_not] at hparent
  split
  · exact ⟨h, .refl s p, nofun⟩
  split
  · exact ⟨h, .refl s p, nofun⟩
  split
  case h_1 failedit hfailed =>
    exact ⟨h.setFlags (h.sound.markFailedChildren hfailed), ⟨rfl, rfl, .inl rfl⟩, nofun⟩
  case h_2 =>
    split
    · exact ⟨h.addToBlockIndex hnew hparent _, ⟨rfl, rfl, .inl rfl⟩, nofun⟩
    · have hadded := h.addToBlockIndex hnew hparent {}
      have hmem : p ∈ (s.addToBlockIndex p {}).blockIndex :=
        mem_append_right _ (mem_singleton_self p)
      obtain ⟨hinv, harrived⟩ := hadded.acceptedBlockHeader hmem
      refine ⟨hinv, ⟨harrived.tip_eq, harrived.bestChainLock_eq, harrived.lock⟩, fun _ => ?_⟩
      unfold CChainState.acceptedBlockHeader
      split <;> exact hmem

omit h in
/-- A block that fails its contextual checks has no data, so it is not active. -/
lemma Sound.markInvalid (h : Sound env s) (hnew : (s.data p).haveData = false) :
    Sound env (s.setFlags [p] fun flags => { flags with failedValid := true }) := by
  have hlinked : ∀ {q}, s.Linked q → q ∉ [p] := by
    intro q hq hmem
    rw [mem_singleton.mp hmem] at hq
    rw [h.tree.linked_data hq] at hnew
    cases hnew
  refine Steady.mark h (sameTree_setFlags _ _ _) rfl (fun {q} hne hq => ?_) (fun hq => hq)
    (fun {q} hcand => ?_) fun {q} hq => ?_
  · have hset := h.settled hne hq
    rw [flags_setFlags, if_neg (hlinked hset.linked)]
    exact hset.unmarked
  · rw [isCandidate_iff] at hcand
    rw [flags_setFlags, if_neg (hlinked hcand.2.2)] at hcand
    exact ⟨isCandidate_iff.mpr hcand, fun hq => hq⟩
  · refine ⟨(h.failed hq).1, ?_⟩
    rw [flags_setFlags]
    split
    · rfl
    · exact (h.failed hq).2

/-- The candidates stay complete when a block arrives. -/
lemma Inv.acceptBlock (arrival : BlockArrival) :
    Inv env (s.acceptBlock env arrival).1 ∧
      Arrived s arrival.pindex (s.acceptBlock env arrival).1 := by
  obtain ⟨hinv, harrived, hmem⟩ := h.acceptBlockHeader arrival.pindex arrival.headerOk
  unfold CChainState.acceptBlock
  dsimp only
  split
  · exact ⟨hinv, harrived⟩
  case isFalse haccepted =>
  split
  · exact ⟨hinv, harrived⟩
  case isFalse hnew =>
  rw [Bool.not_eq_true] at hnew
  split
  · exact ⟨hinv, harrived⟩
  split
  · obtain ⟨hsound, hsame, hwait⟩ := hinv.sound.receivedBlockTransactions hinv.waiting
      (hmem (not_not.mp haccepted)) hnew
    refine ⟨⟨hsound, hwait, fun hlock => ?_, fun hlock => ?_⟩, hsame.tip_eq.trans harrived.tip_eq,
      hsame.bestChainLock_eq.trans harrived.bestChainLock_eq, ?_⟩
    · rw [hsame.bestChainLockBlockIndex_eq] at hlock
      rw [hsame.blockIndex_eq]
      exact hinv.lock_mem hlock
    · rw [hsame.bestChainLockBlockIndex_eq] at hlock
      rw [hsame.bestChainLock_eq]
      exact hinv.lock_le hlock
    · rw [hsame.bestChainLockBlockIndex_eq]
      exact harrived.lock
  · exact ⟨hinv.setFlags (hinv.sound.markInvalid hnew), harrived.1, harrived.2, harrived.3⟩
  · exact ⟨hinv, harrived⟩

end Blocks

/-! ## Enforcing a ChainLock -/

section Enforcing

variable {env : ChainEnv} {s s' : CChainState} {p q w lock : CBlockIndex}
  {blocks : List CBlockIndex}

variable (env s p) in
lemma tip_markConflictingBlock : (s.markConflictingBlock env p).tip =
    if s.contains p then p.pprev else s.tip := rfl

lemma flags_markConflictingBlock : (s.markConflictingBlock env p).flags q =
    if q ∈ p :: (if s.contains p then above p s.tip else []) then
      { s.flags q with conflictChainlock := true } else s.flags q := rfl

lemma sameTree_markConflictingBlock (env : ChainEnv) (s : CChainState) (p : CBlockIndex) :
    SameTree s (s.markConflictingBlock env p) := ⟨rfl, rfl, rfl, rfl, rfl, rfl⟩

lemma mem_candidates_markConflictingBlock :
    q ∈ (s.markConflictingBlock env p).candidates ↔
      (q ∈ s.candidates ∧ q ∉ p :: if s.contains p then above p s.tip else []) ∨
        q ∈ s.blockIndex ∧ (s.markConflictingBlock env p).isCandidate q = true ∧
          workComparator env s.data q (s.markConflictingBlock env p).tip = false := by
  unfold markConflictingBlock
  rw [mem_union_iff, mem_eraseCandidates, mem_filter, Bool.and_eq_true, Bool.not_eq_true']
  rfl

/-- The blocks that are marked are not in the chain that is left. -/
lemma not_marked_of_suffix (hp : p ≠ []) (htip : q <:+ (s.markConflictingBlock env p).tip) :
    q <:+ s.tip ∧ q ∉ p :: if s.contains p then above p s.tip else [] := by
  rw [tip_markConflictingBlock] at htip
  split at htip
  case isTrue hon =>
    have hptip : p <:+ s.tip := of_decide_eq_true hon
    have hshort : q.length < p.length := by
      have hle := htip.length_le
      have hpos := length_pos_iff.mpr hp
      rw [CBlockIndex.pprev, length_tail] at hle
      omega
    refine ⟨htip.trans ((tail_suffix p).trans hptip), fun hmem => ?_⟩
    rw [if_pos hon] at hmem
    rcases mem_cons.mp hmem with rfl | hmem
    · omega
    · have hle := ((mem_above hptip hp).mp hmem).2.1.length_le
      omega
  case isFalse hoff =>
    refine ⟨htip, fun hmem => ?_⟩
    rw [if_neg hoff, mem_singleton] at hmem
    rw [hmem] at htip
    exact hoff (decide_eq_true htip)

variable (h : Sound env s)

include h

/-- A block with a parent is marked as conflicting; the active chain is cut below it. -/
lemma Sound.markConflictingBlock (hp : p.pprev ≠ []) :
    Sound env (s.markConflictingBlock env p) := by
  have hne : p ≠ [] := by
    rintro rfl
    exact hp rfl
  have hsame := sameTree_markConflictingBlock env s p
  have htip : (s.markConflictingBlock env p).tip ≠ [] := by
    rw [tip_markConflictingBlock]
    split
    · exact hp
    · exact h.tip_ne
  refine ⟨h.tree.congr hsame, htip, htip, fun {q} hqne hq => ?_, fun {q} hq => ?_, fun {q} hq => ?_,
    fun {q} hcand hle _ => ?_⟩
  · obtain ⟨hon, hnot⟩ := not_marked_of_suffix hne (hq.elim id id)
    have hset := h.settled hqne (.inl hon)
    refine ⟨hset.linked, ?_, hset.connectable⟩
    rw [flags_markConflictingBlock, if_neg hnot]
    exact hset.unmarked
  · rcases mem_candidates_markConflictingBlock.mp hq with ⟨hq, -⟩ | ⟨-, hcand, -⟩
    · exact h.linked hq
    · exact (isCandidate_iff.mp hcand).2.2
  · refine ⟨(h.failed hq).1, ?_⟩
    rw [flags_markConflictingBlock]
    by_cases hmem : q ∈ p :: if s.contains p then above p s.tip else []
    · rw [if_pos hmem]
      exact (h.failed hq).2
    · rw [if_neg hmem]
      exact (h.failed hq).2
  · have hlinked := (isCandidate_iff.mp hcand).2.2
    exact mem_candidates_markConflictingBlock.mpr
      (.inr ⟨h.tree.linked_mem hlinked, hcand, workComparator_eq_false_iff.mpr hle⟩)

lemma Sound.clearFailed (blocks : List CBlockIndex) : Sound env (s.clearFailed env blocks) := by
  have hsame : SameTree s (s.clearFailed env blocks) := ⟨rfl, rfl, rfl, rfl, rfl, rfl⟩
  have hflags : ∀ q, (s.clearFailed env blocks).flags q = if q ∈ blocks then
      { s.flags q with failedValid := false, failedChild := false } else s.flags q := fun q => rfl
  have hcands : ∀ q, q ∈ (s.clearFailed env blocks).candidates ↔ q ∈ s.candidates ∨ q ∈ blocks ∧
      (s.clearFailed env blocks).isCandidate q = true ∧ workComparator env s.data s.tip q = true := by
    intro q
    unfold CChainState.clearFailed
    rw [mem_union_iff, mem_filter, Bool.and_eq_true]
    rfl
  refine ⟨h.tree.congr hsame, h.tip_ne, h.tip_ne, fun {q} hne hq => ?_, fun {q} hq => ?_,
    fun {q} hq => ?_, fun {q} hcand hle _ => ?_⟩
  · have hset := h.settled hne hq
    refine ⟨hset.linked, ?_, hset.connectable⟩
    rw [hflags]
    split
    · exact ⟨rfl, hset.unmarked.not_conflicting⟩
    · exact hset.unmarked
  · rcases (hcands q).mp hq with hq | ⟨-, hcand, -⟩
    · exact h.linked hq
    · exact (isCandidate_iff.mp hcand).2.2
  · obtain ⟨hmem, hnot⟩ := mem_filter.mp hq
    rw [hflags, if_neg (of_decide_eq_true hnot)]
    exact h.failed hmem
  · refine (hcands q).mpr ?_
    by_cases hq : q ∈ blocks
    · -- the tip was a candidate before; what is better is one now
      by_cases htip : q = s.tip
      · rw [htip]
        exact .inl (h.home_mem le_rfl)
      · have hlt := h.tree.workKey_lt h.settled_tip.linked (isCandidate_iff.mp hcand).2.2
          (Ne.symm htip) hle
        exact .inr ⟨hq, hcand, workComparator_iff.mpr hlt⟩
    · rw [isCandidate_iff, hflags, if_neg hq] at hcand
      exact .inl (h.complete (isCandidate_iff.mpr hcand) hle hle)

/-- What leaves the tree and the tip as they are. -/
structure Reflagged (env : ChainEnv) (s s' : CChainState) : Prop where
  sound : Sound env s'
  sameTree : SameTree s s'
  tip_eq : s'.tip = s.tip

omit h in
lemma Reflagged.trans {s₁ s₂ s₃ : CChainState} (h : Reflagged env s₁ s₂)
    (h' : Reflagged env s₂ s₃) : Reflagged env s₁ s₃ :=
  ⟨h'.sound, h.sameTree.trans h'.sameTree, h'.tip_eq.trans h.tip_eq⟩

/-- Blocks that are marked anyway become failed blocks themselves. -/
lemma Sound.failBlocks (hblocks : ∀ q ∈ blocks, q ∈ s.blockIndex ∧ (s.flags q).failed = true) :
    Reflagged env s (blocks.foldl (invalidBlockFound env) s) := by
  induction blocks generalizing s with
  | nil => exact ⟨h, .refl s, rfl⟩
  | cons q blocks ih =>
    rw [forall_mem_cons] at hblocks
    obtain ⟨⟨hmem, hfailed⟩, hrest⟩ := hblocks
    have hoff : ¬ q <:+ s.tip := by
      intro hon
      have hset := h.settled (h.tree.ne_nil hmem) (.inl hon)
      rw [hset.unmarked.not_failed] at hfailed
      cases hfailed
    obtain ⟨hsame, htip⟩ := sameTree_invalidBlockFound env s q
    have hsound : Sound env (s.invalidBlockFound env q) := by
      rw [Sound, htip]
      exact Steady.invalidBlockFound h hmem ⟨hoff, hoff⟩
    refine Reflagged.trans ⟨hsound, hsame, htip⟩ (ih hsound fun r hr => ?_)
    rw [hsame.blockIndex_eq]
    exact ⟨(hrest r hr).1, failed_flags_invalidBlockFound.mpr (.inr (hrest r hr).2)⟩

lemma Sound.failChildren (p : CBlockIndex) : Reflagged env s (s.failChildren env p) := by
  refine h.failBlocks fun q hq => ?_
  rw [mem_filter, Bool.and_eq_true] at hq
  refine ⟨hq.1, ?_⟩
  rw [BlockFlags.failed, hq.2.2, Bool.or_true]

lemma Sound.resetAncestors (p : CBlockIndex) : Reflagged env s (resetAncestors env p s) := by
  induction p generalizing s with
  | nil => exact ⟨h, .refl s, rfl⟩
  | cons block p ih =>
    rw [resetAncestors]
    split
    · have hcleared : Reflagged env s (s.clearFailed env [block :: p]) :=
        ⟨h.clearFailed _, ⟨rfl, rfl, rfl, rfl, rfl, rfl⟩, rfl⟩
      have hfailed := hcleared.sound.failChildren (block :: p)
      exact (hcleared.trans hfailed).trans (ih hfailed.sound)
    · exact ih h

lemma Sound.resetBlockFailureFlags (p : CBlockIndex) :
    Reflagged env s (s.resetBlockFailureFlags env p) := by
  have hcleared : Reflagged env s (s.clearFailed env
      (s.blockIndex.filter fun q => !s.isValid q && p <:+ q)) :=
    ⟨h.clearFailed _, ⟨rfl, rfl, rfl, rfl, rfl, rfl⟩, rfl⟩
  exact hcleared.trans (hcleared.sound.resetAncestors p)

/-- The tips that a round of `EnforceBlock` at the block `w` can leave: the chain is cut at the
parent, or it has none of the marked siblings. -/
structure Cut (env : ChainEnv) (w : CBlockIndex) (blocks : List CBlockIndex)
    (s s' : CChainState) : Prop where
  sound : Sound env s'
  sameTree : SameTree s s'
  tip : s'.tip = s.tip ∨ s'.tip = w.pprev
  suffix : s'.tip <:+ s.tip
  absent : ∀ p ∈ blocks, ¬ p <:+ s'.tip

lemma Sound.markSiblings (hw : w.pprev ≠ []) (blocks : List CBlockIndex)
    (hblocks : ∀ p ∈ blocks, p.pprev = w.pprev) :
    Cut env w blocks s (blocks.foldl (CChainState.markConflictingBlock env) s) := by
  induction blocks generalizing s with
  | nil => exact ⟨h, .refl s, .inl rfl, suffix_rfl, nofun⟩
  | cons p blocks ih =>
    rw [forall_mem_cons] at hblocks
    have hp : p.pprev ≠ [] := by
      rw [hblocks.1]
      exact hw
    have hne : p ≠ [] := by
      rintro rfl
      exact hp rfl
    have hrest := ih (h.markConflictingBlock hp) hblocks.2
    have htip := tip_markConflictingBlock env s p
    have hoff : ¬ p <:+ (s.markConflictingBlock env p).tip := fun hon =>
      (not_marked_of_suffix hne hon).2 mem_cons_self
    have hsuffix : (s.markConflictingBlock env p).tip <:+ s.tip := by
      rw [htip]
      split
      case isTrue hon => exact (tail_suffix p).trans (of_decide_eq_true hon)
      case isFalse => exact suffix_rfl
    rw [foldl_cons]
    refine ⟨hrest.sound, (sameTree_markConflictingBlock env s p).trans hrest.sameTree, ?_,
      hrest.suffix.trans hsuffix, ?_⟩
    · rcases hrest.tip with heq | heq
      · rw [heq, htip]
        split
        · exact .inr hblocks.1
        · exact .inl rfl
      · exact .inr heq
    · rw [forall_mem_cons]
      exact ⟨fun hon => hoff (hon.trans hrest.suffix), hrest.absent⟩

omit h in
/-- A chain cut at the siblings of a block outside it ends at their parent, if it gets there. -/
lemma Cut.tip_eq (hcut : Cut env w (s.blockIndex.filter fun p : CBlockIndex =>
    p.pprev = w.pprev && p ≠ w) s s') (hoff : ¬ w <:+ s.tip) (hparent : w.pprev <:+ s'.tip) :
    s'.tip = w.pprev := by
  by_contra hne
  obtain ⟨block, hchild⟩ := exists_cons_suffix hparent (Ne.symm hne)
  have hmem : (block :: w.pprev) ∈ s.blockIndex := by
    rw [← hcut.sameTree.blockIndex_eq]
    exact hcut.sound.tree.linked_mem (hcut.sound.settled (cons_ne_nil _ _) (.inr hchild)).linked
  have hother : (block :: w.pprev) ≠ w := by
    intro heq
    rw [heq] at hchild
    exact hoff (hchild.trans hcut.suffix)
  refine hcut.absent _ (mem_filter.mpr ⟨hmem, ?_⟩) hchild
  rw [Bool.and_eq_true, decide_eq_true_eq, decide_eq_true_eq]
  exact ⟨rfl, hother⟩

omit h in
/-- Blocks below a lock survive the cut at the siblings of a locked block. -/
lemma Cut.kept (hcut : Cut env w blocks s s') (hoff : ¬ w <:+ s.tip) (hw : w <:+ lock)
    (hp : p <:+ s.tip) (hlock : p <:+ lock) : p <:+ s'.tip := by
  have hbelow : p <:+ w :=
    (comparable_of_suffix hlock hw).resolve_right fun hwp => hoff (hwp.trans hp)
  have hne : p ≠ w := by
    rintro rfl
    exact hoff hp
  rcases hcut.tip with htip | htip <;> rw [htip]
  · exact hp
  · exact suffix_tail_of_ne hbelow hne

/-- The active chain after the loop of `EnforceBlock` for the block `lock`. -/
structure Enforced (env : ChainEnv) (lock : CBlockIndex) (s s' : CChainState) : Prop where
  sound : Sound env s'
  sameTree : SameTree s s'
  comparable : Comparable s'.tip lock
  kept : ∀ {p}, p <:+ s.tip → p <:+ lock → p <:+ s'.tip

/-- **Enforcing**, by induction on the way from the locked block down to the active chain. -/
theorem Sound.enforceLoop (hw : w ≠ [] → w ∈ s.blockIndex) (hlock : w <:+ lock)
    (hon : w <:+ s.tip → Comparable s.tip lock) :
    Enforced env lock s (enforceLoop env w s) := by
  induction w generalizing s with
  | nil => exact ⟨h, .refl s, hon nil_suffix, fun hp _ => hp⟩
  | cons block w ih =>
    have hmem := hw (cons_ne_nil block w)
    rw [enforceLoop]
    split
    case isTrue hcontains => exact ⟨h, .refl s, hon (of_decide_eq_true hcontains), fun hp _ => hp⟩
    case isFalse hcontains =>
      have hoff : ¬ (block :: w) <:+ s.tip := fun hsuffix => hcontains (decide_eq_true hsuffix)
      have hparent : w ∈ s.blockIndex := by
        refine (h.tree.parent_mem hmem).resolve_left fun hgenesis => hoff ?_
        rw [hgenesis]
        exact Steady.genesis_suffix_tip h
      have hcut := h.markSiblings (w := block :: w) (h.tree.ne_nil hparent)
        (s.blockIndex.filter fun p : CBlockIndex => p.pprev = w && p ≠ block :: w) fun p hp => by
          rw [mem_filter, Bool.and_eq_true, decide_eq_true_eq] at hp
          exact hp.2.1
      have hmem' := hcut.sameTree.blockIndex_eq.symm ▸ hparent
      have hrest := ih hcut.sound (fun _ => hmem')
        ((suffix_cons block w).trans hlock) fun hon => by
          rw [hcut.tip_eq hoff hon]
          exact .inl ((suffix_cons block w).trans hlock)
      exact ⟨hrest.sound, hcut.sameTree.trans hrest.sameTree, hrest.comparable,
        fun hp hplock => hrest.kept (hcut.kept hoff hlock hp hplock) hplock⟩

/-- So they do when a ChainLock is enforced. -/
lemma Sound.enforceBlock (hmem : lock ∈ s.blockIndex) :
    Enforced env lock s (s.enforceBlock env lock) := by
  have hloop := h.enforceLoop (fun _ => hmem) suffix_rfl Or.inr
  rw [CChainState.enforceBlock]
  split
  · exact hloop
  · have hreset := hloop.sound.resetBlockFailureFlags lock
    refine ⟨hreset.sound, hloop.sameTree.trans hreset.sameTree, ?_, fun hp hlock => ?_⟩ <;>
      rw [hreset.tip_eq]
    · exact hloop.comparable
    · exact hloop.kept hp hlock

end Enforcing

/-! ## Whole runs -/

section Runs

variable {env : ChainEnv} {s s' : CChainState} {p t lock X : CBlockIndex}
  {events : List ChainEvent}

/-- A block is held: it is in the active chain, and the best ChainLock with a known block is not
below it. -/
def Held (X : CBlockIndex) (s : CChainState) : Prop :=
  ∃ lock, s.bestChainLockBlockIndex = some lock ∧ X <:+ lock ∧ X <:+ s.tip

/-- What is held on a chain stays on every chain that does not conflict with the lock and has no
less work. -/
lemma suffix_of_workKey_le {data : CBlockIndex → BlockData} (hlock : Comparable t lock)
    (hX : X <:+ lock) (hp : X <:+ p) (hle : workKey env data p ≤ workKey env data t) :
    X <:+ t := by
  have hone : Comparable X t := by
    rcases hlock with htlock | hlockt
    · exact comparable_of_suffix hX htlock
    · exact .inl (hX.trans hlockt)
  refine hone.elim id fun htX => ?_
  by_cases heq : t = X
  · exact heq ▸ suffix_rfl
  · -- a shorter chain has less work
    have hlt : t.nChainWork < X.nChainWork := nChainWork_lt_of_suffix htX heq
    have hXp : X.nChainWork ≤ p.nChainWork := nChainWork_le_of_suffix hp
    have hpt := nChainWork_le_of_workKey_le hle
    omega

/-- What an event does to the active chain. -/
structure Moved (env : ChainEnv) (s s' : CChainState) : Prop where
  inv : Inv env s'
  held : ∀ {X}, Held X s → Held X s'

lemma Inv.congr (h : Inv env s) (hsound : Sound env s') (hsame : SameTree s s') : Inv env s' := by
  obtain ⟨hindex, hdata, -, hunlinked, hbest, hlock⟩ := hsame
  cases s
  subst hindex hdata hunlinked hbest hlock
  exact ⟨hsound, ⟨h.waiting.nodup, h.waiting.waits⟩, h.lock_mem, h.lock_le⟩

/-- **ActivateBestChain** returns, and gives up no block that is held, if the active chain does
not conflict with the ChainLock to begin with. -/
theorem Inv.activateBestChain (h : Inv env s) (hon : OnLock s s.tip) :
    ∃ s', s.activateBestChain env = some s' ∧ s'.bestChainLock = s.bestChainLock ∧
      Moved env s s' := by
  obtain ⟨s', hrun, hsound, hsame, hon', hwork⟩ := h.sound.activateBestChain hon
  refine ⟨s', hrun, hsame.bestChainLock_eq, h.congr hsound hsame, ?_⟩
  rintro X ⟨lock, hlock, hX, htip⟩
  have hlock' := hsame.bestChainLockBlockIndex_eq.trans hlock
  exact ⟨lock, hlock', hX, suffix_of_workKey_le (hon' lock hlock') hX htip hwork⟩

lemma Inv.enforceBestChainLock (h : Inv env s) :
    ∃ s', s.enforceBestChainLock env = some s' ∧ s'.bestChainLock = s.bestChainLock ∧
      Moved env s s' := by
  rw [CChainState.enforceBestChainLock]
  split
  · exact ⟨s, rfl, rfl, h, id⟩
  case h_2 lock hlock =>
    have henf := h.sound.enforceBlock (h.lock_mem hlock)
    have hinv := h.congr henf.sound henf.sameTree
    have hlock' := henf.sameTree.bestChainLockBlockIndex_eq.trans hlock
    have hheld : ∀ {X}, Held X s → Held X (s.enforceBlock env lock) := by
      rintro X ⟨lock', heq, hX, htip⟩
      cases hlock.symm.trans heq
      exact ⟨lock, hlock', hX, henf.kept htip hX⟩
    dsimp only
    split
    · have hon : OnLock (s.enforceBlock env lock) (s.enforceBlock env lock).tip := by
        intro other heq
        cases hlock'.symm.trans heq
        exact henf.comparable
      obtain ⟨s', hrun, hbest, hmoved⟩ := hinv.activateBestChain hon
      exact ⟨s', hrun, hbest.trans henf.sameTree.bestChainLock_eq, hmoved.inv,
        fun hX => hmoved.held (hheld hX)⟩
    · exact ⟨_, rfl, henf.sameTree.bestChainLock_eq, hinv, hheld⟩

/-- The best ChainLock block once the header of a block is there. -/
def lockAfter (s : CChainState) (pindex : CBlockIndex) : Option CBlockIndex :=
  if s.bestChainLock = some pindex then some pindex else s.bestChainLockBlockIndex

/-- No block arrives while the active chain conflicts with the best ChainLock block. -/
def undisputed (s : CChainState) : ChainEvent → Bool
  | .block arrival => (s.lockAfter arrival.pindex).all fun lock => Comparable s.tip lock
  | _ => true

/-- The same along a run. -/
def allUndisputed (env : ChainEnv) : CChainState → List ChainEvent → Bool
  | _, [] => true
  | s, event :: events => s.undisputed event &&
      (s.step env event).all fun s' => allUndisputed env s' events

/-- What is held stays held when a header arrives: the new best ChainLock block descends from the
old one. -/
lemma Arrived.held (harrived : Arrived s p s') (h : Inv env s) (hX : Held X s) : Held X s' := by
  obtain ⟨lock, hlock, hXlock, htip⟩ := hX
  rw [← harrived.tip_eq] at htip
  rcases harrived.lock with heq | ⟨hbest, heq⟩
  · exact ⟨lock, heq.trans hlock, hXlock, htip⟩
  · obtain ⟨best, hbest', hle⟩ := h.lock_le hlock
    cases hbest.symm.trans hbest'
    exact ⟨p, heq, hXlock.trans hle, htip⟩

lemma Arrived.onLock (harrived : Arrived s p s') (h : Inv env s)
    (hund : (s.lockAfter p).all (fun lock => Comparable s.tip lock) = true) :
    OnLock s' s'.tip := by
  intro lock hlock
  rw [harrived.tip_eq]
  rw [lockAfter] at hund
  split at hund
  case isTrue hbest =>
    have hp : Comparable s.tip p := of_decide_eq_true hund
    rcases harrived.lock with heq | ⟨-, heq⟩
    · obtain ⟨best, hbest', hle⟩ := h.lock_le (heq.symm.trans hlock)
      cases hbest.symm.trans hbest'
      exact (hp.symm.of_suffix hle).symm
    · cases heq.symm.trans hlock
      exact hp
  case isFalse hbest =>
    rcases harrived.lock with heq | ⟨hbest', -⟩
    · rw [heq.symm.trans hlock] at hund
      exact of_decide_eq_true hund
    · exact absurd hbest' hbest

lemma Inv.processNewBlock (h : Inv env s) {arrival : BlockArrival}
    (hund : s.undisputed (.block arrival) = true) :
    ∃ s', s.processNewBlock env arrival = some s' ∧ s'.bestChainLock = s.bestChainLock ∧
      Moved env s s' := by
  obtain ⟨hinv, harrived⟩ := h.acceptBlock arrival
  rw [CChainState.processNewBlock]
  split
  · obtain ⟨s', hrun, hbest, hmoved⟩ := hinv.activateBestChain (harrived.onLock h hund)
    exact ⟨s', hrun, hbest.trans harrived.bestChainLock_eq, hmoved.inv,
      fun hX => hmoved.held (harrived.held h hX)⟩
  · exact ⟨_, rfl, harrived.bestChainLock_eq, hinv, harrived.held h⟩

lemma Inv.processNewChainLock (h : Inv env s)
    (hone : ∀ best, s.bestChainLock = some best → Comparable best p) :
    Moved env s (s.processNewChainLock p) := by
  rw [CChainState.processNewChainLock]
  split
  · exact ⟨h, id⟩
  case isFalse hbetter =>
    -- the old lock is below the new one, whose block may not be known yet
    have hbelow : ∀ {lock}, s.bestChainLockBlockIndex = some lock → lock <:+ p := by
      intro lock hlock
      obtain ⟨best, hbest, hle⟩ := h.lock_le hlock
      rw [hbest] at hbetter
      have hlt : best.nHeight < p.nHeight := by
        simpa using hbetter
      refine hle.trans ((hone best hbest).suffix_of_length_le ?_)
      rw [CBlockIndex.nHeight, CBlockIndex.nHeight] at hlt
      omega
    by_cases hmem : p ∈ s.blockIndex
    · rw [if_pos hmem]
      refine ⟨⟨h.sound.setLocks _ _ _, ⟨h.waiting.nodup, h.waiting.waits⟩, fun hlock => ?_,
        fun hlock => ?_⟩, ?_⟩
      · cases hlock
        exact hmem
      · cases hlock
        exact ⟨p, rfl, suffix_rfl⟩
      · rintro X ⟨lock, hlock, hX, htip⟩
        exact ⟨p, rfl, hX.trans (hbelow hlock), htip⟩
    · rw [if_neg hmem]
      exact ⟨⟨h.sound.setLocks _ _ _, ⟨h.waiting.nodup, h.waiting.waits⟩, h.lock_mem,
        fun hlock => ⟨p, rfl, hbelow hlock⟩⟩, id⟩

/-- **One event.** -/
theorem Inv.step (h : Inv env s) {event : ChainEvent} (hund : s.undisputed event = true)
    (hone : ∀ best p, s.bestChainLock = some best → event = .chainLock p → Comparable best p) :
    ∃ s', s.step env event = some s' ∧ Moved env s s' ∧
      ∀ best, s'.bestChainLock = some best →
        s.bestChainLock = some best ∨ event = .chainLock best := by
  cases event with
  | header p headerOk =>
    obtain ⟨hinv, harrived, -⟩ := h.acceptBlockHeader p headerOk
    exact ⟨_, rfl, ⟨hinv, harrived.held h⟩, fun best hbest =>
      .inl (harrived.bestChainLock_eq.symm.trans hbest)⟩
  | block arrival =>
    obtain ⟨s', hstep, hbest, hmoved⟩ := h.processNewBlock hund
    exact ⟨s', hstep, hmoved, fun best heq => .inl (hbest.symm.trans heq)⟩
  | chainLock p =>
    refine ⟨_, rfl, h.processNewChainLock fun best hbest => hone best p hbest rfl, ?_⟩
    intro best hbest
    rw [CChainState.processNewChainLock] at hbest
    split at hbest
    · exact .inl hbest
    · cases hbest
      exact .inr rfl
  | enforce =>
    obtain ⟨s', hstep, hbest, hmoved⟩ := h.enforceBestChainLock
    exact ⟨s', hstep, hmoved, fun best heq => .inl (hbest.symm.trans heq)⟩

/-- The blocks of the ChainLocks of a run. -/
def lockBlocks (events : List ChainEvent) : List CBlockIndex :=
  events.filterMap fun
    | .chainLock pindex => some pindex
    | _ => none

lemma mem_lockBlocks : p ∈ lockBlocks events ↔ .chainLock p ∈ events := by
  rw [lockBlocks, mem_filterMap]
  constructor
  · rintro ⟨event, hmem, heq⟩
    cases event with
    | chainLock q =>
      cases heq
      exact hmem
    | header | block | enforce => cases heq
  · exact fun hmem => ⟨_, hmem, rfl⟩

/-- All ChainLocks lie on one chain. -/
def OneChain (events : List ChainEvent) : Prop :=
  ∀ p ∈ lockBlocks events, ∀ q ∈ lockBlocks events, Comparable p q

instance (events : List ChainEvent) : Decidable (OneChain events) :=
  inferInstanceAs (Decidable (∀ p ∈ _, ∀ q ∈ _, _))

/-- **Whole runs**, by induction on the events; `all` holds the ChainLocks of the past as well. -/
theorem Inv.run {all : List ChainEvent} (h : Inv env s) (hone : OneChain all)
    (hbest : ∀ best, s.bestChainLock = some best → best ∈ lockBlocks all)
    (hevents : events ⊆ all) (hund : allUndisputed env s events = true) :
    ∃ s', run env s events = some s' ∧ Moved env s s' ∧
      ∀ best, s'.bestChainLock = some best → best ∈ lockBlocks all := by
  induction events generalizing s with
  | nil => exact ⟨s, rfl, ⟨h, id⟩, hbest⟩
  | cons event events ih =>
    rw [cons_subset] at hevents
    rw [allUndisputed, Bool.and_eq_true] at hund
    obtain ⟨s₁, hstep, hmoved, hbest₁⟩ := h.step hund.1 fun best p hb heq =>
      hone best (hbest best hb) p (mem_lockBlocks.mpr (heq ▸ hevents.1))
    have hund₁ : allUndisputed env s₁ events = true := by
      have hall := hund.2
      rw [hstep] at hall
      exact hall
    have hseen : ∀ best, s₁.bestChainLock = some best → best ∈ lockBlocks all := by
      intro best hb
      rcases hbest₁ best hb with hold | heq
      · exact hbest best hold
      · exact mem_lockBlocks.mpr (heq ▸ hevents.1)
    obtain ⟨s₂, hrun, hmoved₂, hbest₂⟩ := ih hmoved.inv hseen hevents.2 hund₁
    refine ⟨s₂, ?_, ⟨hmoved₂.inv, fun hX => hmoved₂.held (hmoved.held hX)⟩, hbest₂⟩
    rw [run, hstep]
    exact hrun

lemma allUndisputed_append {before after : List ChainEvent}
    (hund : allUndisputed env s (before ++ after) = true) : allUndisputed env s before = true ∧
      ∀ s', run env s before = some s' → allUndisputed env s' after = true := by
  induction before generalizing s with
  | nil =>
    refine ⟨rfl, fun s' hrun => ?_⟩
    cases hrun
    exact hund
  | cons event before ih =>
    rw [cons_append, allUndisputed, Bool.and_eq_true] at hund
    rw [allUndisputed, run, Bool.and_eq_true]
    cases hstep : s.step env event with
    | none => exact ⟨⟨hund.1, rfl⟩, nofun⟩
    | some s₁ =>
      rw [hstep] at hund
      obtain ⟨hbefore, hafter⟩ := ih (s := s₁) hund.2
      exact ⟨⟨hund.1, hbefore⟩, hafter⟩

lemma data_start : ((start env).data p).haveTxsDownloaded = true ↔ p = [env.genesis] := by
  rw [CChainState.start]
  by_cases heq : p = [env.genesis] <;> simp [heq]

variable (env) in
lemma Inv.start : Inv env (start env) := by
  have hgenesis : Settled env (CChainState.start env) [env.genesis] :=
    ⟨data_start.mpr rfl, ⟨rfl, rfl⟩, .inl rfl⟩
  refine ⟨⟨?_, cons_ne_nil _ _, cons_ne_nil _ _, ?_, ?_, nofun, ?_⟩,
    ⟨nodup_nil, nofun⟩, nofun, nofun⟩
  · refine ⟨?_, fun hp => ?_, data_start.mpr rfl, fun hp => ?_, fun hp => ?_, fun hp => ?_,
      fun hp => ?_, fun hp hq _ => ?_⟩
    · exact fun hmem => cons_ne_nil _ _ (mem_singleton.mp hmem).symm
    · exact .inl (mem_singleton.mp hp)
    · exact mem_singleton.mpr (data_start.mp hp)
    · rw [data_start.mp hp]
      simp [CChainState.start]
    · exact .inl (data_start.mp hp)
    · rw [data_start.mp hp]
      simp [CChainState.start]
    · exact (data_start.mp hp).trans (data_start.mp hq).symm
  · intro p hne hp
    have hgen : p = [env.genesis] := by
      simpa [CChainState.start, suffix_cons_iff, hne] using hp
    rw [hgen]
    exact hgenesis
  · intro p hp
    exact data_start.mpr (mem_singleton.mp hp)
  · intro p hcand _ _
    exact mem_singleton.mpr (data_start.mp (isCandidate_iff.mp hcand).2.2)

/-- **ChainLocks hold.** Once the best ChainLock block is in the active chain, it is there after
every later event, in every run in which no block arrives while the active chain conflicts with
the best ChainLock. -/
theorem chainLock_kept (before after : List ChainEvent) (hone : OneChain (before ++ after))
    (hund : allUndisputed env (start env) (before ++ after) = true)
    (hrun : run env (start env) before = some s)
    (hlock : s.bestChainLockBlockIndex = some X) (hactive : s.contains X = true) :
    ∃ s', run env s after = some s' ∧ s'.contains X = true := by
  obtain ⟨hbefore, hafter⟩ := allUndisputed_append hund
  obtain ⟨s₁, hrun₁, hmoved, hbest⟩ := (Inv.start env).run hone nofun
    (subset_append_left before after) hbefore
  cases hrun.symm.trans hrun₁
  have hheld : Held X s := ⟨X, hlock, suffix_rfl, of_decide_eq_true hactive⟩
  obtain ⟨s', hrun', hmoved', -⟩ := hmoved.inv.run hone hbest
    (subset_append_right before after) (hafter s hrun)
  obtain ⟨lock, -, -, htip⟩ := hmoved'.held hheld
  exact ⟨s', hrun', decide_eq_true htip⟩

end Runs

/-! ## A lock that is lost -/

section Lost

/-- Header number `n`. -/
def header (n : Nat) : BlockHeader := ⟨n, 1, Nat.one_pos⟩

/-- The header numbers of a branch, from the genesis block up. -/
def branch (ns : List Nat) : CBlockIndex := ((0 :: ns).map header).reverse

/-- A network on which one block is not valid. -/
def invalidAt (ns : List Nat) : ChainEnv where
  genesis := header 0
  connectable := fun p => p ≠ branch ns
  address := fun _ => 0
  nMinimumChainWork := 0

/-- The arrival of a block that was asked for, or not. -/
def arrives (ns : List Nat) (fRequested : Bool := false) : ChainEvent :=
  .block { pindex := branch ns, fRequested }

/-- The ChainLock of a block in the active chain, and a heavier branch beside it. -/
theorem chainLock_kept_heavier : ∃ s s', run (invalidAt []) (start (invalidAt []))
      [arrives [1], .chainLock (branch [1])] = some s ∧
    run (invalidAt []) s [arrives [2], arrives [2, 3], .enforce] = some s' ∧
      s'.contains (branch [1]) = true := by
  have hcheck : (run (invalidAt []) (start (invalidAt []))
      [arrives [1], .chainLock (branch [1])]).any (fun s =>
        s.bestChainLockBlockIndex = some (branch [1]) && s.contains (branch [1])) = true := by
    decide +kernel
  obtain ⟨s, hrun, hs⟩ := (any_eq_true _ _).mp hcheck
  rw [Bool.and_eq_true, decide_eq_true_eq] at hs
  obtain ⟨s', hrun', hkept⟩ := chainLock_kept _ [arrives [2], arrives [2, 3], .enforce]
    (by decide +kernel) (by decide +kernel) hrun hs.1 hs.2
  exact ⟨s, s', hrun, hrun', hkept⟩

/-- Two branches of two blocks are known when the ChainLock of `[8]` arrives, and then the block,
which is no candidate beside them. The third block of the second branch makes the node try that
branch and give up both; the active chain gets to `[8]` on the way to `[8, 9]`, which is invalid,
so that no candidate is left. -/
def beforeLoss : List ChainEvent :=
  [arrives [1], arrives [3], arrives [6], arrives [1, 2], arrives [3, 4],
    .chainLock (branch [8]), .header (branch [8]) true, arrives [8] true, arrives [3, 4, 5],
    arrives [8, 9]]

/-- `[6, 7]` is tried next, and refused at `[6]`. Nothing leads back to `[8]`. -/
lemma beforeLoss_run : (run (invalidAt [8, 9]) (start (invalidAt [8, 9])) beforeLoss).any
    (fun s => s.bestChainLockBlockIndex = some (branch [8]) && s.contains (branch [8]) &&
      (s.data (branch [8])).haveTxsDownloaded &&
        (run (invalidAt [8, 9]) s [arrives [6, 7]]).any fun s' => s'.tip = branch []) = true := by
  decide +kernel

/-- **A lost ChainLock.** The block is in the active chain with its data, and one more block takes
it out. -/
theorem chainLock_lost : OneChain (beforeLoss ++ [arrives [6, 7]]) ∧
    ∃ s, run (invalidAt [8, 9]) (start (invalidAt [8, 9])) beforeLoss = some s ∧
      s.bestChainLockBlockIndex = some (branch [8]) ∧ s.contains (branch [8]) = true ∧
      (s.data (branch [8])).haveTxsDownloaded = true ∧
      ∃ s', run (invalidAt [8, 9]) s [arrives [6, 7]] = some s' ∧
        s'.contains (branch [8]) = false := by
  obtain ⟨s, hrun, hs⟩ := (any_eq_true _ _).mp beforeLoss_run
  simp only [Bool.and_eq_true, decide_eq_true_eq] at hs
  obtain ⟨⟨⟨hlock, hactive⟩, hdata⟩, hlost⟩ := hs
  obtain ⟨s', hrun', htip⟩ := (any_eq_true _ _).mp hlost
  refine ⟨by decide +kernel, s, hrun, hlock, hactive, hdata, s', hrun', ?_⟩
  rw [contains, of_decide_eq_true htip]
  decide

end Lost

end HootChain.Validation.CChainState

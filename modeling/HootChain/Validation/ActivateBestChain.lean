import HootChain.Validation.BlockTree

/-!
# What `ActivateBestChain` Keeps

A round of `ActivateBestChain` may disconnect a good part of the active chain for a candidate
that turns out to be of no use. The tip it started from stays a candidate all the while, and
the round cannot end before the tip is at least as good again.
-/

namespace HootChain.Validation

open Foundation.Branches List CBlockIndex Nat

/-! ## The order of the candidates -/

section Order

variable {env : ChainEnv} {data : CBlockIndex → BlockData} {p q m : CBlockIndex}

lemma workComparator_iff :
    workComparator env data p q = true ↔ workKey env data p < workKey env data q := by
  rw [workKey, workKey, Prod.Lex.toLex_lt_toLex, Prod.Lex.toLex_lt_toLex,
    OrderDual.toDual_lt_toDual]
  unfold workComparator
  split_ifs <;> simp <;> omega

lemma workComparator_eq_false_iff :
    workComparator env data p q = false ↔ workKey env data q ≤ workKey env data p := by
  rw [← not_lt, ← workComparator_iff, Bool.not_eq_true]

lemma workKey_lt_of_nChainWork_lt (h : p.nChainWork < q.nChainWork) :
    workKey env data p < workKey env data q :=
  Prod.Lex.toLex_lt_toLex.mpr (.inl h)

lemma nChainWork_le_of_workKey_le (h : workKey env data p ≤ workKey env data q) :
    p.nChainWork ≤ q.nChainWork := by
  by_contra hlt
  exact absurd (workKey_lt_of_nChainWork_lt (not_le.mp hlt)) (not_lt.mpr h)

lemma nChainWork_lt_cons (block : BlockHeader) (p : CBlockIndex) :
    p.nChainWork < nChainWork (block :: p) := by
  have hpos := block.proof_pos
  simp only [nChainWork, map_cons, sum_cons]
  omega

lemma nChainWork_lt_of_suffix (h : p <:+ m) (hne : p ≠ m) : p.nChainWork < m.nChainWork := by
  induction m with
  | nil => exact absurd (suffix_nil.mp h) hne
  | cons block m ih =>
    have htail : p <:+ m := suffix_tail_of_ne h hne
    have hlt := nChainWork_lt_cons block m
    by_cases heq : p = m
    · rw [heq]
      exact hlt
    · exact (ih htail heq).trans hlt

lemma nChainWork_le_of_suffix (h : p <:+ m) : p.nChainWork ≤ m.nChainWork := by
  by_cases heq : p = m
  · rw [heq]
  · exact le_of_lt (nChainWork_lt_of_suffix h heq)

lemma workKey_le_of_suffix (h : p <:+ m) : workKey env data p ≤ workKey env data m := by
  by_cases heq : p = m
  · rw [heq]
  · exact le_of_lt (workKey_lt_of_nChainWork_lt (nChainWork_lt_of_suffix h heq))

end Order

namespace CChainState

/-! ## The tree -/

section Trees

variable {env : ChainEnv} {s s' : CChainState} {p q m : CBlockIndex}

/-- The data of the block and of all its ancestors is there. -/
abbrev Linked (s : CChainState) (p : CBlockIndex) : Prop := (s.data p).haveTxsDownloaded = true

/-- The blocks form a tree. The linked ones are those with the data of all ancestors; each has
its own sequence number. -/
structure Tree (env : ChainEnv) (s : CChainState) : Prop where
  nil_not_mem : [] ∉ s.blockIndex
  parent_mem : ∀ {p}, p ∈ s.blockIndex → p = [env.genesis] ∨ p.pprev ∈ s.blockIndex
  genesis_linked : s.Linked [env.genesis]
  linked_mem : ∀ {p}, s.Linked p → p ∈ s.blockIndex
  linked_data : ∀ {p}, s.Linked p → (s.data p).haveData = true
  linked_parent : ∀ {p}, s.Linked p → p = [env.genesis] ∨ s.Linked p.pprev
  sequence_lt : ∀ {p}, s.Linked p → (s.data p).nSequenceId < s.nBlockSequenceId
  sequence_inj : ∀ {p q}, s.Linked p → s.Linked q →
    (s.data p).nSequenceId = (s.data q).nSequenceId → p = q

lemma Tree.ne_nil (h : Tree env s) (hp : p ∈ s.blockIndex) : p ≠ [] := by
  rintro rfl
  exact h.nil_not_mem hp

lemma Tree.genesis_suffix (h : Tree env s) (hp : p ∈ s.blockIndex) : [env.genesis] <:+ p := by
  induction p with
  | nil => exact absurd hp h.nil_not_mem
  | cons block p ih =>
    rcases h.parent_mem hp with heq | hparent
    · rw [heq]
    · exact (ih hparent).trans (suffix_cons block p)

lemma Tree.linked_of_suffix (h : Tree env s) (hm : s.Linked m) (hp : p <:+ m) (hne : p ≠ []) :
    s.Linked p := by
  induction m with
  | nil => exact absurd (suffix_nil.mp hp) hne
  | cons block m ih =>
    rcases suffix_cons_iff.mp hp with rfl | hp'
    · exact hm
    · rcases h.linked_parent hm with heq | hparent
      · cases heq
        exact absurd (suffix_nil.mp hp') hne
      · exact ih hparent hp'

/-- Among linked blocks the order is strict. -/
lemma Tree.workKey_lt (h : Tree env s) (hp : s.Linked p) (hq : s.Linked q) (hne : p ≠ q)
    (hle : workKey env s.data p ≤ workKey env s.data q) :
    workKey env s.data p < workKey env s.data q := by
  refine lt_of_le_of_ne hle fun heq => hne (h.sequence_inj hp hq ?_)
  have hsnd := congrArg Prod.snd (toLex_inj.mp heq)
  exact OrderDual.toDual_inj.mp (congrArg Prod.fst (toLex_inj.mp hsnd))

/-- What neither `ActivateBestChain` nor the flags of blocks touch. -/
structure SameTree (s s' : CChainState) : Prop where
  blockIndex_eq : s'.blockIndex = s.blockIndex
  data_eq : s'.data = s.data
  nBlockSequenceId_eq : s'.nBlockSequenceId = s.nBlockSequenceId
  unlinked_eq : s'.unlinked = s.unlinked
  bestChainLock_eq : s'.bestChainLock = s.bestChainLock
  bestChainLockBlockIndex_eq : s'.bestChainLockBlockIndex = s.bestChainLockBlockIndex

lemma SameTree.refl (s : CChainState) : SameTree s s := ⟨rfl, rfl, rfl, rfl, rfl, rfl⟩

lemma SameTree.trans {s₁ s₂ s₃ : CChainState} (h : SameTree s₁ s₂) (h' : SameTree s₂ s₃) :
    SameTree s₁ s₃ :=
  ⟨h'.1.trans h.1, h'.2.trans h.2, h'.3.trans h.3, h'.4.trans h.4, h'.5.trans h.5, h'.6.trans h.6⟩

lemma SameTree.linked (h : SameTree s s') : s'.Linked p ↔ s.Linked p := by
  rw [Linked, h.data_eq]

lemma Tree.congr (h : Tree env s) (hsame : SameTree s s') : Tree env s' := by
  obtain ⟨hindex, hdata, hid, -, -, -⟩ := hsame
  cases s
  subst hindex hdata hid
  exact ⟨h.nil_not_mem, h.parent_mem, h.genesis_linked, h.linked_mem, h.linked_data,
    h.linked_parent, h.sequence_lt, h.sequence_inj⟩

end Trees

/-! ## The invariant of a round -/

section Rounds

variable {env : ChainEnv} {home : CBlockIndex} {s s' : CChainState} {p q m : CBlockIndex}

/-- Neither failed nor in conflict with a ChainLock. -/
structure Unmarked (flags : BlockFlags) : Prop where
  not_failed : flags.failed = false
  not_conflicting : flags.conflictChainlock = false

/-- The same as for these is said of `flags'`. -/
structure SameMarks (flags flags' : BlockFlags) : Prop where
  failed_eq : flags'.failed = flags.failed
  conflict_eq : flags'.conflictChainlock = flags.conflictChainlock

lemma Unmarked.congr {flags flags' : BlockFlags} (h : Unmarked flags)
    (hsame : SameMarks flags flags') : Unmarked flags' :=
  ⟨hsame.failed_eq.trans h.not_failed, hsame.conflict_eq.trans h.not_conflicting⟩

/-- A block that was connected before and can be connected again, ChainLocks apart. -/
structure Settled (env : ChainEnv) (s : CChainState) (p : CBlockIndex) : Prop where
  linked : s.Linked p
  unmarked : Unmarked (s.flags p)
  connectable : p = [env.genesis] ∨ env.connectable p = true

/-- **The invariant** of a round that started with the tip `home`. The chains of `home` and of
the tip are settled, and the candidates are complete from the better of the two on. -/
structure Steady (env : ChainEnv) (home : CBlockIndex) (s : CChainState) : Prop where
  tree : Tree env s
  home_ne : home ≠ []
  tip_ne : s.tip ≠ []
  settled : ∀ {p}, p ≠ [] → p <:+ home ∨ p <:+ s.tip → Settled env s p
  linked : ∀ {p}, p ∈ s.candidates → s.Linked p
  failed : ∀ {p}, p ∈ s.failedBlocks → p ∈ s.blockIndex ∧ (s.flags p).failedValid = true
  complete : ∀ {p}, s.isCandidate p = true → workKey env s.data home ≤ workKey env s.data p →
    workKey env s.data s.tip ≤ workKey env s.data p → p ∈ s.candidates

lemma isCandidate_iff : s.isCandidate p = true ↔ Unmarked (s.flags p) ∧
    (s.data p).haveData = true ∧ (s.data p).haveTxsDownloaded = true := by
  simp only [isCandidate, Bool.and_eq_true, Bool.not_eq_true']
  exact ⟨fun ⟨⟨⟨hfailed, hdata⟩, hconf⟩, hlinked⟩ => ⟨⟨hfailed, hconf⟩, hdata, hlinked⟩,
    fun ⟨⟨hfailed, hconf⟩, hdata, hlinked⟩ => ⟨⟨⟨hfailed, hdata⟩, hconf⟩, hlinked⟩⟩

lemma Settled.isCandidate (h : Settled env s p) (htree : Tree env s) : s.isCandidate p = true :=
  isCandidate_iff.mpr ⟨h.unmarked, htree.linked_data h.linked, h.linked⟩

section

variable (h : Steady env home s)

include h

lemma Steady.settled_tip : Settled env s s.tip := h.settled h.tip_ne (.inr suffix_rfl)

lemma Steady.settled_home : Settled env s home := h.settled h.home_ne (.inl suffix_rfl)

lemma Steady.genesis_suffix_tip : [env.genesis] <:+ s.tip :=
  h.tree.genesis_suffix (h.tree.linked_mem h.settled_tip.linked)

/-- The tip of the start is a candidate as long as no better one is found. -/
lemma Steady.home_mem
    (hbehind : workKey env s.data s.tip ≤ workKey env s.data home) : home ∈ s.candidates :=
  h.complete (h.settled_home.isCandidate h.tree) le_rfl hbehind

/-- Once the tip is as good as the one of the start, a new round can start from it. -/
lemma Steady.rehome
    (hahead : workKey env s.data home ≤ workKey env s.data s.tip) : Steady env s.tip s where
  tree := h.tree
  home_ne := h.tip_ne
  tip_ne := h.tip_ne
  settled hne hp := h.settled hne (.inr (hp.elim id id))
  linked := h.linked
  failed := h.failed
  complete hcand hle _ := h.complete hcand (hahead.trans hle) hle

/-- Blocks of other chains are marked, and may leave the candidates. -/
lemma Steady.mark (hsame : SameTree s s') (htip : s'.tip = s.tip)
    (hkept : ∀ {p}, p ≠ [] → p <:+ home ∨ p <:+ s.tip → Unmarked (s'.flags p))
    (hcands : ∀ {p}, p ∈ s'.candidates → p ∈ s.candidates)
    (hmarks : ∀ {p}, s'.isCandidate p = true → s.isCandidate p = true ∧
      (p ∈ s.candidates → p ∈ s'.candidates))
    (hfailed : ∀ {p}, p ∈ s'.failedBlocks → p ∈ s.blockIndex ∧ (s'.flags p).failedValid = true) :
    Steady env home s' where
  tree := h.tree.congr hsame
  home_ne := h.home_ne
  tip_ne := by
    rw [htip]
    exact h.tip_ne
  settled {p} hne hp := by
    rw [htip] at hp
    have hset := h.settled hne hp
    exact ⟨hsame.linked.mpr hset.linked, hkept hne hp, hset.connectable⟩
  linked hp := hsame.linked.mpr (h.linked (hcands hp))
  failed := by
    rw [hsame.blockIndex_eq]
    exact hfailed
  complete {p} hcand hhome htip' := by
    rw [hsame.data_eq] at hhome htip'
    rw [htip] at htip'
    exact (hmarks hcand).2 (h.complete (hmarks hcand).1 hhome htip')

end

/-! ## Flags -/

@[simp] lemma flags_setFlags (blocks : List CBlockIndex) (set : BlockFlags → BlockFlags) :
    (s.setFlags blocks set).flags p = if p ∈ blocks then set (s.flags p) else s.flags p := rfl

lemma sameTree_setFlags (s : CChainState) (blocks : List CBlockIndex)
    (set : BlockFlags → BlockFlags) : SameTree s (s.setFlags blocks set) :=
  ⟨rfl, rfl, rfl, rfl, rfl, rfl⟩

@[simp] lemma mem_eraseCandidates {blocks : List CBlockIndex} :
    p ∈ (s.eraseCandidates blocks).candidates ↔ p ∈ s.candidates ∧ p ∉ blocks := by
  simp [eraseCandidates]

lemma insertFailed_eq (env : ChainEnv) (s : CChainState) (p : CBlockIndex) :
    ∃ failedBlocks, s.insertFailed env p = { s with failedBlocks } ∧
      ∀ q, q ∈ failedBlocks ↔ q = p ∨ q ∈ s.failedBlocks := by
  unfold insertFailed
  split
  case isTrue hmem =>
    refine ⟨s.failedBlocks, rfl, fun q => ⟨.inr, ?_⟩⟩
    rintro (rfl | hq)
    · exact hmem
    · exact hq
  case isFalse => exact ⟨_, rfl, fun q => mem_orderedInsert _⟩

/-! ## `FindMostWorkChain` -/

/-- No block on the way from the active chain is marked. -/
structure Usable (s : CChainState) (m : CBlockIndex) : Prop where
  linked : s.Linked m
  unmarked : ∀ {p}, p ≠ [] → p <:+ m → ¬ p <:+ s.tip → Unmarked (s.flags p)

lemma firstUnusable_eq_some (h : s.firstUnusable m = some p) :
    p ≠ [] ∧ p <:+ m ∧ ((s.flags p).failed = true ∨ (s.data p).haveData = false ∨
      (s.flags p).conflictChainlock = true) := by
  induction m with
  | nil => cases h
  | cons block m ih =>
    rw [firstUnusable] at h
    split at h
    · cases h
    split at h
    case isTrue hmarked =>
      cases h
      refine ⟨cons_ne_nil block m, suffix_rfl, ?_⟩
      rwa [Bool.not_eq_true] at hmarked
    case isFalse =>
      obtain ⟨hne, hp, hmarked⟩ := ih h
      exact ⟨hne, hp.trans (suffix_cons block m), hmarked⟩

lemma firstUnusable_eq_none (h : s.firstUnusable m = none) (hne : p ≠ []) (hp : p <:+ m)
    (hoff : ¬ p <:+ s.tip) : Unmarked (s.flags p) := by
  induction m with
  | nil => exact absurd (suffix_nil.mp hp) hne
  | cons block m ih =>
    rw [firstUnusable] at h
    split at h
    case isTrue hon => exact absurd (hp.trans (of_decide_eq_true hon)) hoff
    split at h
    · cases h
    case isFalse hmarked =>
      rcases suffix_cons_iff.mp hp with rfl | hp'
      · simp only [not_or, Bool.not_eq_true] at hmarked
        exact ⟨hmarked.1, hmarked.2.2⟩
      · exact ih h hp'

/-- The descendants of a marked block are marked too. -/
lemma Steady.markAbove (h : Steady env home s) (hq : q ≠ []) (hqm : q <:+ m)
    (hmarked : (s.flags q).failed = true ∨ (s.flags q).conflictChainlock = true)
    {set : BlockFlags → BlockFlags}
    (hset : ∀ flags, (set flags).failed = true ∨ (set flags).conflictChainlock = true)
    (hvalid : ∀ flags, flags.failedValid = true → (set flags).failedValid = true)
    (hsame : SameTree s s') (htip : s'.tip = s.tip)
    (hflags : ∀ p, s'.flags p = if p ∈ above q m then set (s.flags p) else s.flags p)
    (hcands : ∀ p, p ∈ s'.candidates → p ∈ s.candidates)
    (herased : ∀ p, p ∈ s.candidates → p ∉ q :: above q m → p ∈ s'.candidates)
    (hfailed : s'.failedBlocks = s.failedBlocks) : Steady env home s' := by
  have hunmarked : ∀ {p}, s'.isCandidate p = true → p ∉ above q m := by
    intro p hcand hmem
    obtain ⟨hunmarked, -⟩ := isCandidate_iff.mp hcand
    rw [hflags, if_pos hmem] at hunmarked
    simpa [hunmarked.not_failed, hunmarked.not_conflicting] using hset (s.flags p)
  refine h.mark hsame htip (fun {p} hne hp => ?_) (fun hp => hcands _ hp) (fun {p} hcand => ?_)
    fun {p} hp => ?_
  · -- a marked block is in neither chain, so neither are its descendants
    have hnot : p ∉ above q m := by
      intro hmem
      have hqp := ((mem_above hqm hq).mp hmem).2.1
      have hset := (h.settled hq (hp.imp hqp.trans hqp.trans)).unmarked
      simp [hset.not_failed, hset.not_conflicting] at hmarked
    rw [hflags, if_neg hnot]
    exact (h.settled hne hp).unmarked
  · have hnot := hunmarked hcand
    have hcand' : s.isCandidate p = true := by
      rw [isCandidate_iff, hflags, if_neg hnot, hsame.data_eq] at hcand
      exact isCandidate_iff.mpr hcand
    refine ⟨hcand', fun hp => herased p hp ?_⟩
    rw [mem_cons, not_or]
    refine ⟨?_, hnot⟩
    rintro rfl
    obtain ⟨hunmarked, -⟩ := isCandidate_iff.mp hcand'
    simp [hunmarked.not_failed, hunmarked.not_conflicting] at hmarked
  · rw [hfailed] at hp
    refine ⟨(h.failed hp).1, ?_⟩
    rw [hflags]
    split
    · exact hvalid _ (h.failed hp).2
    · exact (h.failed hp).2

/-- What one round of `FindMostWorkChain` does. -/
lemma Steady.removeChain (h : Steady env home s) (hm : m ∈ s.candidates)
    (htest : s.firstUnusable m = some q) :
    Steady env home (s.removeChain m q) ∧ SameTree s (s.removeChain m q) ∧
      (s.removeChain m q).tip = s.tip ∧
      (s.removeChain m q).candidates.length < s.candidates.length ∧
      ∀ p, (s.flags p).failed = true → ((s.removeChain m q).flags p).failed = true := by
  obtain ⟨hq, hqm, hunusable⟩ := firstUnusable_eq_some htest
  have hdata := h.tree.linked_data (h.tree.linked_of_suffix (h.linked hm) hqm hq)
  have hmarked : (s.flags q).failed = true ∨ (s.flags q).conflictChainlock = true := by
    rcases hunusable with hfailed | hmissing | hconf
    · exact .inl hfailed
    · rw [hdata] at hmissing
      cases hmissing
    · exact .inr hconf
  -- the candidate itself is among those that are removed
  have hlength : (s.candidates.filter (· ∉ q :: above q m)).length < s.candidates.length := by
    rw [length_filter_lt_length_iff_exists]
    refine ⟨m, hm, ?_⟩
    rw [decide_eq_true_eq, not_not, mem_cons, mem_above hqm hq]
    by_cases heq : m = q
    · exact .inl heq
    · exact .inr ⟨suffix_rfl, hqm, heq⟩
  have hmono : ∀ (set : BlockFlags → BlockFlags),
      (∀ flags, flags.failed = true → (set flags).failed = true) →
      ∀ p, (s.flags p).failed = true →
        (((s.setFlags (above q m) set).eraseCandidates (q :: above q m)).flags p).failed = true := by
    intro set hset p hp
    show (if p ∈ above q m then set (s.flags p) else s.flags p).failed = true
    split
    · exact hset _ hp
    · exact hp
  have hmark : ∀ (set : BlockFlags → BlockFlags),
      (∀ flags, (set flags).failed = true ∨ (set flags).conflictChainlock = true) →
      (∀ flags, flags.failedValid = true → (set flags).failedValid = true) →
      Steady env home ((s.setFlags (above q m) set).eraseCandidates (q :: above q m)) := by
    intro set hset hvalid
    refine h.markAbove hq hqm hmarked hset hvalid ⟨rfl, rfl, rfl, rfl, rfl, rfl⟩ rfl
      (fun p => rfl) (fun p hp => ?_) (fun p hp hnot => ?_) rfl
    · exact (mem_eraseCandidates.mp hp).1
    · exact mem_eraseCandidates.mpr ⟨hp, hnot⟩
  unfold CChainState.removeChain
  dsimp only
  split
  · have hfailed : ∀ flags : BlockFlags, { flags with failedChild := true }.failed = true := by
      simp [BlockFlags.failed]
    exact ⟨hmark _ (fun flags => .inl (hfailed flags)) (fun flags hflag => hflag),
      ⟨rfl, rfl, rfl, rfl, rfl, rfl⟩, rfl, hlength, hmono _ fun flags _ => hfailed flags⟩
  case isFalse hnot =>
    rw [if_pos (hmarked.resolve_left hnot)]
    exact ⟨hmark _ (fun flags => .inr rfl) (fun flags hflag => hflag),
      ⟨rfl, rfl, rfl, rfl, rfl, rfl⟩, rfl, hlength, hmono _ fun flags hflag => hflag⟩

lemma countUnfailed_le (hsame : s'.blockIndex = s.blockIndex)
    (hmono : ∀ p, (s.flags p).failed = true → (s'.flags p).failed = true) :
    s'.countUnfailed ≤ s.countUnfailed := by
  rw [countUnfailed, hsame]
  refine countP_mono_left fun p _ hp => ?_
  rw [Bool.not_eq_true'] at hp ⊢
  by_contra hfailed
  rw [hmono p (Bool.not_eq_false _ ▸ hfailed)] at hp
  cases hp

/-- What `FindMostWorkChain` returns. -/
structure Found (env : ChainEnv) (home : CBlockIndex) (s : CChainState)
    (found : CChainState × Option CBlockIndex) : Prop where
  steady : Steady env home found.1
  sameTree : SameTree s found.1
  tip_eq : found.1.tip = s.tip
  countUnfailed_le : found.1.countUnfailed ≤ s.countUnfailed
  exhausted : found.2 = none → found.1.candidates = []
  best : ∀ {m}, found.2 = some m → m ∈ found.1.candidates ∧ Usable found.1 m ∧
    ∀ p ∈ found.1.candidates, workKey env s.data p ≤ workKey env s.data m

variable {fuel : Nat} {mw : Option CBlockIndex} {r : CChainState × Bool}

/-- What `FindMostWorkChain` does. -/
lemma Steady.findMostWorkLoop (h : Steady env home s) (hfuel : s.candidates.length ≤ fuel) :
    Found env home s (findMostWorkLoop env fuel s) := by
  induction fuel generalizing s with
  | zero =>
    have hnil : s.candidates = [] := length_eq_zero_iff.mp (le_zero.mp hfuel)
    exact ⟨h, .refl s, rfl, le_rfl, fun _ => hnil, nofun⟩
  | succ fuel ih =>
    rw [findMostWorkLoop]
    split
    case h_1 hnone => exact ⟨h, .refl s, rfl, le_rfl, fun _ => argmax_eq_none.mp hnone, nofun⟩
    case h_2 m hbest =>
      have hmem : m ∈ s.candidates := argmax_mem hbest
      split
      case h_1 hnone =>
        refine ⟨h, .refl s, rfl, le_rfl, nofun, fun hsome => ?_⟩
        cases hsome
        refine ⟨hmem, ⟨h.linked hmem, firstUnusable_eq_none hnone⟩, fun p hp => ?_⟩
        exact le_of_mem_argmax hp hbest
      case h_2 q htest =>
        obtain ⟨hsteady, hsame, htip, hlength, hmono⟩ := h.removeChain hmem htest
        have hfound := ih hsteady (by omega)
        refine ⟨hfound.steady, hsame.trans hfound.sameTree, hfound.tip_eq.trans htip,
          hfound.countUnfailed_le.trans (countUnfailed_le hsame.blockIndex_eq hmono),
          hfound.exhausted, fun hsome => ?_⟩
        have hbest' := hfound.best hsome
        rw [hsame.data_eq] at hbest'
        exact hbest'

/-! ## `ActivateBestChainStep` -/

/-- The block does not conflict with the best ChainLock. -/
def OnLock (s : CChainState) (p : CBlockIndex) : Prop :=
  ∀ lock, s.bestChainLockBlockIndex = some lock → Comparable p lock

lemma OnLock.of_suffix (h : OnLock s m) (hp : p <:+ m) : OnLock s p :=
  fun lock hlock => (h lock hlock).of_suffix hp

lemma OnLock.congr (h : OnLock s p) (hsame : SameTree s s') : OnLock s' p := by
  intro lock hlock
  rw [hsame.bestChainLockBlockIndex_eq] at hlock
  exact h lock hlock

lemma getAncestor_eq_some_iff {lock : CBlockIndex} (hp : p ≠ []) :
    lock.getAncestor p.nHeight = some p ↔ p <:+ lock := by
  have hpos := length_pos_iff.mpr hp
  unfold getAncestor nHeight
  split
  case isTrue hhigh =>
    refine iff_of_false (by simp) fun hsuffix => ?_
    have hlen := hsuffix.length_le
    omega
  case isFalse hlow =>
    have hdrop : ((lock.length : Int) - 1 - ((p.length : Int) - 1)).toNat =
        lock.length - p.length := by omega
    rw [hdrop, Option.some_inj, drop_eq_iff_suffix]

lemma hasConflictingChainLock_eq_false_iff (hp : p ≠ []) :
    s.hasConflictingChainLock p = false ↔ ∀ lock, s.bestChainLockBlockIndex = some lock →
      lock.length < p.length ∨ p <:+ lock := by
  unfold hasConflictingChainLock
  split
  case h_1 hnone => simp [hnone]
  case h_2 lock hlock =>
    have hone : (∀ l, s.bestChainLockBlockIndex = some l → l.length < p.length ∨ p <:+ l) ↔
        lock.length < p.length ∨ p <:+ lock := by simp [hlock]
    rw [hone]
    split
    case isTrue hhigh =>
      rw [nHeight, nHeight] at hhigh
      exact iff_of_true rfl (.inl (by omega))
    split
    case isTrue hlow heq =>
      have hlen : p.length = lock.length := by
        rw [nHeight, nHeight] at heq
        omega
      simp only [decide_eq_false_iff_not, ne_eq, not_not]
      constructor
      · rintro rfl
        exact .inr suffix_rfl
      · rintro (hlt | hsuffix)
        · omega
        · exact hsuffix.eq_of_length hlen
    case isFalse hlow hne =>
      rw [nHeight, nHeight] at hlow
      simp only [decide_eq_false_iff_not, ne_eq, not_not]
      rw [getAncestor_eq_some_iff hp]
      exact ⟨.inr, fun h => h.resolve_left (by omega)⟩

/-- A block that does not conflict is not rejected for the sake of ChainLocks. -/
lemma OnLock.hasConflictingChainLock (h : OnLock s p) (hp : p ≠ []) :
    s.hasConflictingChainLock p = false := by
  refine (hasConflictingChainLock_eq_false_iff hp).mpr fun lock hlock => ?_
  rcases lt_or_ge lock.length p.length with hlt | hle
  · exact .inl hlt
  · exact .inr ((h lock hlock).suffix_of_length_le hle)

lemma Steady.disconnect (h : Steady env home s)
    (hbehind : workKey env s.data s.tip ≤ workKey env s.data home) (hp : p <:+ s.tip)
    (hne : p ≠ []) : Steady env home { s with tip := p } where
  tree := h.tree.congr ⟨rfl, rfl, rfl, rfl, rfl, rfl⟩
  home_ne := h.home_ne
  tip_ne := hne
  settled hq hon :=
    have hset := h.settled hq (hon.imp_right fun hqp => hqp.trans hp)
    ⟨hset.linked, hset.unmarked, hset.connectable⟩
  linked := h.linked
  failed := h.failed
  complete hcand hhome _ := h.complete hcand hhome (hbehind.trans hhome)

/-- A block is connected on top of the tip. -/
lemma Steady.connect (h : Steady env home s) {block : BlockHeader}
    (hlinked : s.Linked (block :: s.tip))
    (hflags : Unmarked (s.flags (block :: s.tip)))
    (hrun : s.connectTip env (block :: s.tip) = some s') :
    Steady env home (s'.pruneBlockIndexCandidates env) ∧ SameTree s s' ∧
      s'.tip = block :: s.tip ∧ s.hasConflictingChainLock (block :: s.tip) = false ∧
      ∀ p, SameMarks (s.flags p) (s'.flags p) := by
  unfold connectTip at hrun
  split at hrun
  · cases hrun
  case isFalse hlock =>
  split at hrun
  · cases hrun
  case isFalse hconn =>
  cases hrun
  have hsame : ∀ p, SameMarks (s.flags p)
      (if p ∈ [block :: s.tip] then { s.flags p with validScripts := true } else s.flags p) := by
    intro p
    split <;> exact ⟨rfl, rfl⟩
  refine ⟨?_, ⟨rfl, rfl, rfl, rfl, rfl, rfl⟩, rfl, Bool.not_eq_true _ ▸ hlock, hsame⟩
  refine ⟨h.tree.congr ⟨rfl, rfl, rfl, rfl, rfl, rfl⟩, h.home_ne, cons_ne_nil block s.tip,
    fun {p} hne hp => ?_, fun {p} hp => ?_, fun {p} hp => ?_, fun {p} hcand hhome htip => ?_⟩
  · have hset : Settled env s p := by
      rcases hp with hp | hp
      · exact h.settled hne (.inl hp)
      · rcases suffix_cons_iff.mp hp with rfl | hp
        · exact ⟨hlinked, hflags, .inr (not_not.mp hconn)⟩
        · exact h.settled hne (.inr hp)
    exact ⟨hset.linked, hset.unmarked.congr (hsame p), hset.connectable⟩
  · exact h.linked (mem_of_mem_filter hp)
  · refine ⟨(h.failed hp).1, ?_⟩
    show (if p ∈ [block :: s.tip] then { s.flags p with validScripts := true }
      else s.flags p).failedValid = true
    split <;> exact (h.failed hp).2
  · have hcand' : s.isCandidate p = true := by
      rw [isCandidate_iff] at hcand ⊢
      exact ⟨hcand.1.congr ⟨(hsame p).1.symm, (hsame p).2.symm⟩, hcand.2⟩
    -- only candidates behind the new tip are pruned
    have hgrown : workKey env s.data s.tip ≤ workKey env s.data (block :: s.tip) :=
      workKey_le_of_suffix (suffix_cons block s.tip)
    refine mem_filter.mpr ⟨h.complete hcand' hhome (hgrown.trans htip), ?_⟩
    rw [decide_eq_true_eq, Bool.not_eq_true, workComparator_eq_false_iff]
    exact htip

lemma invalidBlockFound_eq (env : ChainEnv) (s : CChainState) (p : CBlockIndex) :
    ∃ candidates failedBlocks, s.invalidBlockFound env p =
        { s.setFlags [p] fun flags => { flags with failedValid := true } with
          candidates, failedBlocks } ∧
      (∀ q, q ∈ candidates ↔ q ∈ s.candidates ∧ q ≠ p) ∧
      ∀ q, q ∈ failedBlocks ↔ q = p ∨ q ∈ s.failedBlocks := by
  obtain ⟨failedBlocks, heq, hmem⟩ := insertFailed_eq env
    (s.setFlags [p] fun flags => { flags with failedValid := true }) p
  rw [invalidBlockFound, heq]
  exact ⟨_, failedBlocks, rfl, fun q => by simp [setFlags], hmem⟩

lemma sameTree_invalidBlockFound (env : ChainEnv) (s : CChainState) (p : CBlockIndex) :
    SameTree s (s.invalidBlockFound env p) ∧ (s.invalidBlockFound env p).tip = s.tip := by
  obtain ⟨candidates, failedBlocks, heq, -⟩ := invalidBlockFound_eq env s p
  rw [heq]
  exact ⟨⟨rfl, rfl, rfl, rfl, rfl, rfl⟩, rfl⟩

lemma failed_flags_invalidBlockFound :
    ((s.invalidBlockFound env p).flags q).failed = true ↔ q = p ∨ (s.flags q).failed = true := by
  obtain ⟨candidates, failedBlocks, heq, -⟩ := invalidBlockFound_eq env s p
  rw [heq]
  by_cases hq : q = p <;> simp [hq, BlockFlags.failed]

/-- A block turns out to be invalid, or to conflict. -/
lemma Steady.invalidBlockFound (h : Steady env home s) (hmem : p ∈ s.blockIndex)
    (hoff : ¬ p <:+ home ∧ ¬ p <:+ s.tip) : Steady env home (s.invalidBlockFound env p) := by
  obtain ⟨candidates, failedBlocks, heq, hcands, hfailed⟩ := invalidBlockFound_eq env s p
  rw [heq]
  refine h.mark ⟨rfl, rfl, rfl, rfl, rfl, rfl⟩ rfl (fun {q} hqne hq => ?_)
    (fun {q} hq => ((hcands q).mp hq).1) (fun {q} hq => ?_) fun {q} hq => ?_
  · have hqp : q ∉ [p] := by
      rw [mem_singleton]
      rintro rfl
      exact hq.elim hoff.1 hoff.2
    rw [flags_setFlags, if_neg hqp]
    exact (h.settled hqne hq).unmarked
  · rw [isCandidate_iff, flags_setFlags] at hq
    split at hq
    case isTrue => simpa [BlockFlags.failed] using hq.1.not_failed
    case isFalse hqp =>
      exact ⟨isCandidate_iff.mpr hq, fun hmem =>
        (hcands q).mpr ⟨hmem, fun heq => hqp (mem_singleton.mpr heq)⟩⟩
  · rw [flags_setFlags]
    rcases (hfailed q).mp hq with rfl | hq
    · rw [if_pos (mem_singleton_self q)]
      exact ⟨hmem, rfl⟩
    · refine ⟨(h.failed hq).1, ?_⟩
      split
      · rfl
      · exact (h.failed hq).2

lemma countUnfailed_invalidBlockFound (hmem : p ∈ s.blockIndex)
    (hp : (s.flags p).failed = false) :
    (s.invalidBlockFound env p).countUnfailed < s.countUnfailed := by
  have hsub : (fun q => !((s.invalidBlockFound env p).flags q).failed) =
      fun q => decide (q ≠ p) && !(s.flags q).failed := by
    funext q
    rw [Bool.eq_iff_iff, Bool.not_eq_true', Bool.and_eq_true, decide_eq_true_eq, Bool.not_eq_true',
      ← Bool.not_eq_true, failed_flags_invalidBlockFound, not_or, Bool.not_eq_true]
  rw [countUnfailed, countUnfailed, (sameTree_invalidBlockFound env s p).1.blockIndex_eq, hsub,
    countP_eq_length_filter, countP_eq_length_filter, ← filter_filter,
    length_filter_lt_length_iff_exists]
  exact ⟨p, mem_filter.mpr ⟨hmem, by simp [hp]⟩, by simp⟩

/-- What the loop of `ActivateBestChainStep` does on its way to `m`. -/
structure Connected (env : ChainEnv) (home : CBlockIndex) (s : CChainState)
    (ps : List CBlockIndex) (m : CBlockIndex) (r : CChainState × Bool) : Prop where
  steady : Steady env home r.1
  sameTree : SameTree s r.1
  onLock : OnLock s r.1.tip
  invalid : r.2 = true → r.1.countUnfailed < s.countUnfailed
  advanced : r.2 = false → s.tip <:+ r.1.tip ∧ r.1.tip <:+ m ∧ (ps ≠ [] → s.tip ≠ r.1.tip)
  sameMarks : r.2 = false → ∀ p, SameMarks (s.flags p) (r.1.flags p)

/-- **Connecting**, by induction on the blocks of the way. -/
theorem Steady.connectBlocks {ps : List CBlockIndex} {t : CBlockIndex} (old : CBlockIndex)
    (hclimb : Climb t ps m) (htip : s.tip = t) (h : Steady env home s)
    (hm : s.Linked m)
    (hunmarked : ∀ p ∈ ps, Unmarked (s.flags p))
    (hhome : OnLock s home) (honLock : OnLock s s.tip) :
    Connected env home s ps m (connectBlocks env old ps s) := by
  induction hclimb generalizing s with
  | done t =>
    rw [connectBlocks]
    refine ⟨h, .refl s, honLock, nofun, fun _ => ⟨suffix_rfl, ?_, ?_⟩, fun _ p => ⟨rfl, rfl⟩⟩
    · rw [htip]
    · exact fun hps => absurd rfl hps
  | @child block t ps m hclimb ih =>
    subst htip
    rw [forall_mem_cons] at hunmarked
    have hlinked := h.tree.linked_of_suffix hm hclimb.suffix (cons_ne_nil block s.tip)
    rw [connectBlocks]
    split
    case h_1 hfail =>
      -- the block is not one of the chain of the start, which would connect
      have hoff : ¬ (block :: s.tip) <:+ home := by
        intro hon
        have hset := h.settled (cons_ne_nil block s.tip) (.inl hon)
        have hconn : env.connectable (block :: s.tip) = true := by
          refine hset.connectable.resolve_left fun heq => h.tip_ne ?_
          exact (cons.inj heq).2
        rw [connectTip, (hhome.of_suffix hon).hasConflictingChainLock (cons_ne_nil block s.tip),
          hconn] at hfail
        cases hfail
      have hmem := h.tree.linked_mem hlinked
      refine ⟨h.invalidBlockFound hmem ⟨hoff, not_cons_suffix _ _⟩,
        (sameTree_invalidBlockFound env s _).1, ?_, fun _ => ?_, nofun, nofun⟩
      · rw [(sameTree_invalidBlockFound env s _).2]
        exact honLock
      · exact countUnfailed_invalidBlockFound hmem hunmarked.1.1
    case h_2 s₁ hrun =>
      obtain ⟨hsteady, hsame, htip, hconf, hflags⟩ := h.connect hlinked hunmarked.1 hrun
      have hsame' : SameTree s (s₁.pruneBlockIndexCandidates env) :=
        hsame.trans ⟨rfl, rfl, rfl, rfl, rfl, rfl⟩
      have htip' : (s₁.pruneBlockIndexCandidates env).tip = block :: s.tip := htip
      have honLock' : OnLock s (block :: s.tip) := fun lock hlock =>
        (honLock lock hlock).push
          ((hasConflictingChainLock_eq_false_iff (cons_ne_nil block s.tip)).mp hconf lock hlock)
      dsimp only
      split
      case isTrue =>
        refine ⟨hsteady, hsame', ?_, nofun, fun _ => ?_, fun _ => hflags⟩
        · rw [htip']
          exact honLock'
        · rw [htip']
          exact ⟨suffix_cons block s.tip, hclimb.suffix,
            fun _ heq => not_cons_suffix block s.tip (heq ▸ suffix_rfl)⟩
      case isFalse =>
        have hrest := ih htip' hsteady (hsame'.linked.mpr hm)
          (fun p hp => ?_) (hhome.congr hsame') ?_
        · refine ⟨hrest.steady, hsame'.trans hrest.sameTree, ?_, fun hr => ?_, fun hr => ?_,
            fun hr p => ?_⟩
          · intro lock hlock
            rw [← hsame'.bestChainLockBlockIndex_eq] at hlock
            exact hrest.onLock lock hlock
          · refine (hrest.invalid hr).trans_le (countUnfailed_le hsame'.blockIndex_eq fun p hp => ?_)
            exact (hflags p).1.trans hp
          · obtain ⟨hfrom, hto, -⟩ := hrest.advanced hr
            rw [htip'] at hfrom
            refine ⟨(suffix_cons block s.tip).trans hfrom, hto, fun _ heq => ?_⟩
            rw [← heq] at hfrom
            exact not_cons_suffix block s.tip hfrom
          · exact ⟨(hrest.sameMarks hr p).1.trans (hflags p).1,
              (hrest.sameMarks hr p).2.trans (hflags p).2⟩
        · exact (hunmarked.2 p hp).congr (hflags p)
        · rw [htip']
          exact honLock'.congr hsame'

/-- What `ActivateBestChainStep` does on the way to `m`. -/
structure Stepped (env : ChainEnv) (home : CBlockIndex) (s : CChainState) (m : CBlockIndex)
    (r : CChainState × Bool) : Prop where
  steady : Steady env home r.1
  sameTree : SameTree s r.1
  onLock : OnLock r.1 r.1.tip
  invalid : r.2 = true → r.1.countUnfailed < s.countUnfailed
  advanced : r.2 = false → Usable r.1 m ∧ r.1.tip <:+ m ∧
    (fork s.tip m).length < r.1.tip.length ∧ r.1.countUnfailed ≤ s.countUnfailed

lemma Steady.activateBestChainStep (h : Steady env home s)
    (hbehind : workKey env s.data s.tip ≤ workKey env s.data home) (hm : Usable s m)
    (hle : workKey env s.data s.tip ≤ workKey env s.data m) (hne : m ≠ s.tip)
    (hhome : OnLock s home) (honLock : OnLock s s.tip) :
    Stepped env home s m (s.activateBestChainStep env m) := by
  have hmem := h.tree.linked_mem hm.linked
  have hgenesis := suffix_fork h.genesis_suffix_tip (h.tree.genesis_suffix hmem)
  have hfork : fork s.tip m ≠ [] := by
    intro hnil
    rw [hnil] at hgenesis
    exact absurd (suffix_nil.mp hgenesis) (cons_ne_nil _ _)
  -- the target is not behind the tip, so there is something to connect
  have hpending : pending s.tip m ≠ [] := by
    cases m with
    | nil => exact absurd rfl (h.tree.ne_nil hmem)
    | cons block m =>
      rw [pending]
      split
      case isTrue hon =>
        have hlt := nChainWork_lt_of_suffix hon hne
        exact absurd (nChainWork_le_of_workKey_le hle) (not_le.mpr hlt)
      case isFalse => exact append_ne_nil_of_right_ne_nil _ (cons_ne_nil _ _)
  have hback : SameTree s { s with tip := fork s.tip m } := ⟨rfl, rfl, rfl, rfl, rfl, rfl⟩
  have hconn := (h.disconnect hbehind (fork_suffix s.tip m).1 hfork).connectBlocks s.tip
    (climb_pending s.tip m) rfl hm.linked (fun p hp => ?_) hhome
    (honLock.of_suffix (fork_suffix s.tip m).1)
  · have hsame : SameTree s (s.activateBestChainStep env m).1 := hback.trans hconn.sameTree
    refine ⟨hconn.steady, hsame, hconn.onLock.congr hconn.sameTree, hconn.invalid, fun hr => ?_⟩
    obtain ⟨hfrom, hto, hmoved⟩ := hconn.advanced hr
    have hflags := hconn.sameMarks hr
    have hlonger : (fork s.tip m).length < (s.activateBestChainStep env m).1.tip.length := by
      refine lt_of_le_of_ne hfrom.length_le fun heq => hmoved hpending ?_
      exact hfrom.eq_of_length heq
    refine ⟨⟨hsame.linked.mpr hm.linked, fun {p} hpne hp hoff => ?_⟩, hto, hlonger, ?_⟩
    · -- what is not in the new chain was not in the old one either
      have hoff' : ¬ p <:+ s.tip := fun hon => hoff ((suffix_fork hon hp).trans hfrom)
      exact (hm.unmarked hpne hp hoff').congr (hflags p)
    · exact countUnfailed_le hsame.blockIndex_eq fun p hp => (hflags p).1.trans hp
  · obtain ⟨hpm, hoff⟩ := mem_pending hp
    refine hm.unmarked ?_ hpm hoff
    rintro rfl
    exact hoff nil_suffix

/-! ## Rounds -/

/-- The steps that are left on the way to a candidate, at most. -/
def remaining (s : CChainState) : Option CBlockIndex → Nat
  | none => s.longest + 2
  | some m => if s.tip <:+ m then m.length - s.tip.length else m.length + 1

/-- What gets less with every step. -/
def stepsLeft (s : CChainState) (pindexMostWork : Option CBlockIndex) : Nat :=
  s.countUnfailed * (s.longest + 3) + s.remaining pindexMostWork

lemma length_le_longest (hp : p ∈ s.blockIndex) : p.length ≤ s.longest :=
  le_max_of_le' 0 (mem_map_of_mem hp) le_rfl

lemma remaining_lt_of_mem (hp : p ∈ s.blockIndex) : s.remaining (some p) < s.remaining none := by
  have hlen := length_le_longest hp
  rw [remaining, remaining]
  split <;> omega

section

variable (hsame : s'.blockIndex = s.blockIndex)

include hsame

lemma longest_congr : s'.longest = s.longest := by
  rw [longest, longest, hsame]

lemma stepsLeft_lt_of_remaining_lt {mw' : Option CBlockIndex} (hcount : s'.countUnfailed ≤ s.countUnfailed)
    (hlt : s'.remaining mw' < s.remaining mw) : s'.stepsLeft mw' < s.stepsLeft mw := by
  rw [stepsLeft, longest_congr hsame]
  exact add_lt_add_of_le_of_lt (mul_le_mul_right _ hcount) hlt

lemma stepsLeft_lt_of_invalid
    (hcount : s'.countUnfailed < s.countUnfailed) : s'.stepsLeft none < s.stepsLeft mw := by
  have hmul := mul_le_mul_right (s.longest + 3) hcount
  rw [succ_mul] at hmul
  rw [stepsLeft, stepsLeft, remaining, longest_congr hsame]
  omega

end

/-- After a step that finds nothing invalid the tip is closer to the candidate. -/
lemma Stepped.stepsLeft_lt (h : Stepped env home s m r) :
    r.1.stepsLeft (if r.2 then none else some m) < s.stepsLeft (some m) := by
  cases hr : r.2 with
  | true => exact stepsLeft_lt_of_invalid h.sameTree.blockIndex_eq (h.invalid hr)
  | false =>
    obtain ⟨-, hto, hlonger, hcount⟩ := h.advanced hr
    refine stepsLeft_lt_of_remaining_lt h.sameTree.blockIndex_eq hcount ?_
    have hlen := hto.length_le
    rw [if_neg Bool.false_ne_true, remaining, remaining, if_pos hto]
    split
    case isTrue hon =>
      rw [fork_eq_left hon] at hlonger
      omega
    case isFalse => omega

/-- A candidate that a round has settled on. -/
def OnTheWay (env : ChainEnv) (s : CChainState) (low : CBlockIndex) (mw : Option CBlockIndex) :
    Prop :=
  ∀ m, mw = some m → Usable s m ∧ workKey env s.data low ≤ workKey env s.data m

/-- A step without an invalid block keeps to its candidate. -/
lemma Stepped.onTheWay {low : CBlockIndex} (h : Stepped env home s m r)
    (hlow : r.2 = false → workKey env s.data low ≤ workKey env s.data m) :
    OnTheWay env r.1 low (if r.2 then none else some m) := by
  intro m' hm'
  cases hr : r.2 with
  | true =>
    rw [hr] at hm'
    cases hm'
  | false =>
    rw [hr] at hm'
    cases hm'
    rw [h.sameTree.data_eq]
    exact ⟨(h.advanced hr).1, hlow hr⟩

/-- What a round leaves behind. -/
structure Finished (env : ChainEnv) (home : CBlockIndex) (r r' : Round) : Prop where
  steady : Steady env home r'.state
  sameTree : SameTree r.state r'.state
  onLock : OnLock r'.state r'.state.tip
  ahead : workKey env r.state.data home ≤ workKey env r.state.data r'.state.tip
  onTheWay : OnTheWay env r'.state r'.state.tip r'.pindexMostWork
  stepsLeft_le : r'.state.stepsLeft r'.pindexMostWork ≤ r.state.stepsLeft r.pindexMostWork
  stepsLeft_lt : r'.blocksConnected = r.blocksConnected ∨
    r'.state.stepsLeft r'.pindexMostWork < r.state.stepsLeft r.pindexMostWork

/-- There always is a candidate, and it is not worse than the tip of the start. -/
lemma Steady.chooseMostWork {r : Round} (h : Steady env home r.state)
    (hbehind : workKey env r.state.data r.state.tip ≤ workKey env r.state.data home)
    (hway : OnTheWay env r.state home r.pindexMostWork) :
    ∃ s m, chooseMostWork env r = (s, some m) ∧ Steady env home s ∧ SameTree r.state s ∧
      s.tip = r.state.tip ∧ OnTheWay env s home (some m) ∧
      s.stepsLeft (some m) ≤ r.state.stepsLeft r.pindexMostWork := by
  unfold CChainState.chooseMostWork
  split
  case h_1 hnone =>
    have hfound : Found env home r.state (r.state.findMostWorkChain env) :=
      h.findMostWorkLoop le_rfl
    have hmem : home ∈ (r.state.findMostWorkChain env).1.candidates := by
      refine hfound.steady.home_mem ?_
      rw [hfound.sameTree.data_eq, hfound.tip_eq]
      exact hbehind
    cases hbest : (r.state.findMostWorkChain env).2 with
    | none =>
      rw [hfound.exhausted hbest] at hmem
      cases hmem
    | some m =>
      obtain ⟨hcand, husable, hmax⟩ := hfound.best hbest
      refine ⟨_, m, Prod.ext rfl hbest, hfound.steady, hfound.sameTree, hfound.tip_eq,
        fun m' hm' => ?_, le_of_lt ?_⟩
      · cases hm'
        rw [hfound.sameTree.data_eq]
        exact ⟨husable, hmax home hmem⟩
      · refine stepsLeft_lt_of_remaining_lt hfound.sameTree.blockIndex_eq hfound.countUnfailed_le ?_
        rw [hnone]
        have hlt := remaining_lt_of_mem (hfound.steady.tree.linked_mem husable.linked)
        rwa [remaining, longest_congr hfound.sameTree.blockIndex_eq] at hlt
  case h_2 m hsome =>
    refine ⟨r.state, m, rfl, h, .refl r.state, rfl, fun m' hm' => ?_, ?_⟩
    · exact hway m' (hsome.trans hm')
    · rw [hsome]

/-- **A round** ends with a tip that is not worse than the one it started from: until then
that one is a candidate. -/
theorem Steady.activateRound {r : Round} (h : Steady env home r.state)
    (hbehind : workKey env r.state.data r.state.tip ≤ workKey env r.state.data home)
    (hway : OnTheWay env r.state home r.pindexMostWork) (hhome : OnLock r.state home)
    (honLock : OnLock r.state r.state.tip) (hfuel : r.state.stepsLeft r.pindexMostWork < fuel) :
    ∃ r', activateRound env home fuel r = some r' ∧ Finished env home r r' := by
  induction fuel generalizing r with
  | zero => omega
  | succ fuel ih =>
    obtain ⟨s, m, hchoose, hsteady, hsame, htip, hway', hleft⟩ := h.chooseMostWork hbehind hway
    obtain ⟨husable, hhomem⟩ := hway' m rfl
    rw [CChainState.activateRound, hchoose]
    dsimp only
    have hbehind' : workKey env s.data s.tip ≤ workKey env s.data home := by
      rw [hsame.data_eq, htip]
      exact hbehind
    have honLock' : OnLock s s.tip := by
      rw [htip]
      exact honLock.congr hsame
    split
    case isTrue heq =>
      -- nothing is left to do
      refine ⟨_, rfl, hsteady, hsame, honLock', ?_, fun m' hm' => ?_, hleft, .inl rfl⟩
      · rw [← hsame.data_eq, ← heq]
        exact hhomem
      · cases hm'
        exact ⟨husable, le_of_eq (congrArg _ heq.symm)⟩
    case isFalse hne =>
      have hstep := hsteady.activateBestChainStep hbehind' husable (hbehind'.trans hhomem) hne
        (hhome.congr hsame) honLock'
      have hsame' := hsame.trans hstep.sameTree
      have hlt := hstep.stepsLeft_lt.trans_le hleft
      split
      case isTrue hworse =>
        -- worse than at the start: the loop goes on
        have hworse' := workComparator_iff.mp hworse
        have hfuel' := hlt.trans_le (le_of_lt_succ hfuel)
        obtain ⟨r', hrun, hfin⟩ := @ih
          ⟨_, if (s.activateBestChainStep env m).2 then none else some m, true⟩ hstep.steady
          hworse'.le (hstep.onTheWay fun _ => hhomem) (hhome.congr hsame') hstep.onLock hfuel'
        refine ⟨r', hrun, hfin.steady, hsame'.trans hfin.sameTree, hfin.onLock, ?_, hfin.onTheWay,
          hfin.stepsLeft_le.trans hlt.le, .inr (hfin.stepsLeft_le.trans_lt hlt)⟩
        have hahead := hfin.ahead
        rw [hsame'.data_eq] at hahead
        exact hahead
      case isFalse hworse =>
        refine ⟨_, rfl, hstep.steady, hsame', hstep.onLock, ?_, ?_, hlt.le, .inr hlt⟩
        · rw [← hsame'.data_eq]
          exact workComparator_eq_false_iff.mp (Bool.not_eq_true _ ▸ hworse)
        · exact hstep.onTheWay fun hr => workKey_le_of_suffix (hstep.advanced hr).2.1

/-! ## `ActivateBestChain` -/

/-- The candidates are complete, and the chain of the tip is settled. -/
def Sound (env : ChainEnv) (s : CChainState) : Prop := Steady env s.tip s

/-- The rounds, by induction on the steps that are left. -/
lemma Sound.activateLoop {stepFuel : Nat} (h : Sound env s) (hway : OnTheWay env s s.tip mw)
    (honLock : OnLock s s.tip) (hfuel : s.stepsLeft mw < fuel) (hstep : s.stepsLeft mw < stepFuel) :
    ∃ s', activateLoop env stepFuel fuel s mw = some s' ∧ Sound env s' ∧ SameTree s s' ∧
      OnLock s' s'.tip ∧ workKey env s.data s.tip ≤ workKey env s.data s'.tip := by
  induction fuel generalizing s mw with
  | zero => omega
  | succ fuel ih =>
    have hround : ∃ r', activateRound env s.tip stepFuel ⟨s, mw, false⟩ = some r' ∧
        Finished env s.tip ⟨s, mw, false⟩ r' :=
      Steady.activateRound h le_rfl hway honLock honLock hstep
    obtain ⟨r', hrun, hfin⟩ := hround
    have hahead := hfin.ahead
    have hsame := hfin.sameTree
    have hsound : Sound env r'.state := hfin.steady.rehome (by rw [hsame.data_eq]; exact hahead)
    rw [activateLoop, hrun]
    dsimp only
    split
    · exact ⟨_, rfl, hsound, hsame, hfin.onLock, hahead⟩
    split
    · exact ⟨_, rfl, hsound, hsame, hfin.onLock, hahead⟩
    case isFalse hconn _ =>
      have hlt : r'.state.stepsLeft r'.pindexMostWork < s.stepsLeft mw := by
        refine hfin.stepsLeft_lt.resolve_left fun heq => hconn ?_
        rw [heq]
        exact Bool.false_ne_true
      obtain ⟨s', hrun', hsound', hsame', honLock', hahead'⟩ :=
        ih hsound hfin.onTheWay hfin.onLock (by omega) (by omega)
      refine ⟨s', hrun', hsound', hsame.trans hsame', honLock', ?_⟩
      rw [hsame.data_eq] at hahead'
      exact hahead.trans hahead'

/-- **`ActivateBestChain`** returns, and the new tip is not worse than the old one. -/
theorem Sound.activateBestChain (h : Sound env s) (honLock : OnLock s s.tip) :
    ∃ s', s.activateBestChain env = some s' ∧ Sound env s' ∧ SameTree s s' ∧
      OnLock s' s'.tip ∧ workKey env s.data s.tip ≤ workKey env s.data s'.tip := by
  have hleft : s.stepsLeft none < s.stepBound := by
    rw [stepsLeft, remaining, stepBound, succ_mul]
    omega
  exact Sound.activateLoop h nofun honLock hleft hleft

end Rounds

end CChainState

end HootChain.Validation

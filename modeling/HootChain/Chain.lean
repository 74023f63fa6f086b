import Mathlib.Tactic.Common
import Mathlib.Order.Basic
import Mathlib.Algebra.Order.Group.Nat

/-!
# Block Index (`chain.h`, `chain.cpp`)

A block index points to its predecessor and, once `BuildSkip` has run, to a far older
ancestor. `GetAncestor` walks along these pointers.
-/

namespace HootChain.Chain

open Option List

/-- What ends the process. -/
inductive Crash where
  | assertion (condition : String)
  | nullPointer (expression : String)

/-- A rejection with its reason, or the end of the process. -/
inductive Failure where
  | invalid (reason : String)
  | crash (crash : Crash)

/-! ## Skip heights -/

def invertLowestOne (n : Nat) : Nat := n &&& (n - 1)

def getSkipHeight (height : Nat) : Nat :=
  if height < 2 then 0
  else if height % 2 = 1 then invertLowestOne (invertLowestOne (height - 1)) + 1
  else invertLowestOne height

lemma invertLowestOne_le (n : Nat) : invertLowestOne n ≤ n - 1 := Nat.and_le_right

lemma getSkipHeight_lt {height : Nat} (hpos : 0 < height) : getSkipHeight height < height := by
  unfold getSkipHeight
  have hinner := invertLowestOne_le (height - 1)
  have houter := invertLowestOne_le (invertLowestOne (height - 1))
  have heven := invertLowestOne_le height
  split_ifs <;> omega

/-- Follow `pskip`, unless the `pskip` of the predecessor is the better choice. -/
def followsSkip (height heightWalk : Nat) : Bool :=
  let heightSkip := getSkipHeight heightWalk
  let heightSkipPrev := getSkipHeight (heightWalk - 1)
  heightSkip = height ∨
    (heightSkip > height ∧ ¬ (heightSkipPrev + 2 < heightSkip ∧ heightSkipPrev ≥ height))

lemma le_of_followsSkip {height heightWalk : Nat} (h : followsSkip height heightWalk = true) :
    height ≤ getSkipHeight heightWalk := by
  unfold followsSkip at h
  simp only [decide_eq_true_eq] at h
  omega

/-! ## Indexes -/

/-- `CBlockIndex`, with the pointers `pprev` and `pskip`. -/
inductive CBlockIndex (Block : Type) where
  /-- Both pointers are null. -/
  | genesis (block : Block)
  /-- Before `BuildSkip`. -/
  | unlinked (block : Block) (pprev : CBlockIndex Block)
  | linked (block : Block) (pprev pskip : CBlockIndex Block)

namespace CBlockIndex

variable {Block : Type}

/-- The block the index is for. -/
def block : CBlockIndex Block → Block
  | .genesis block | .unlinked block _ | .linked block _ _ => block

def pprev : CBlockIndex Block → Option (CBlockIndex Block)
  | .genesis _ => none
  | .unlinked _ pprev | .linked _ pprev _ => some pprev

def nHeight : CBlockIndex Block → Nat
  | .genesis _ => 0
  | .unlinked _ pprev | .linked _ pprev _ => pprev.nHeight + 1

/-- The index and the indexes reached from it along `pprev`. -/
def ancestors : CBlockIndex Block → List (CBlockIndex Block)
  | .genesis block => [.genesis block]
  | .unlinked block pprev => .unlinked block pprev :: pprev.ancestors
  | .linked block pprev pskip => .linked block pprev pskip :: pprev.ancestors

/-- The loop of `GetAncestor`. -/
def walk (height : Nat) (pindexWalk : CBlockIndex Block) (heightWalk : Nat) :
    Except Crash (CBlockIndex Block) :=
  if heightWalk > height then
    match pindexWalk with
    | .genesis _ => .error (.assertion "pindexWalk->pprev")
    | .unlinked _ pprev => walk height pprev (heightWalk - 1)
    | .linked _ pprev pskip =>
      if followsSkip height heightWalk then walk height pskip (getSkipHeight heightWalk)
      else walk height pprev (heightWalk - 1)
  else
    .ok pindexWalk
termination_by heightWalk
decreasing_by
  · omega
  · exact getSkipHeight_lt (by omega)
  · omega

/-- `GetAncestor`; `none` is the null pointer. -/
def getAncestor (pindex : CBlockIndex Block) (height : Int) :
    Except Crash (Option (CBlockIndex Block)) :=
  if height > pindex.nHeight ∨ height < 0 then .ok none
  else some <$> walk height.toNat pindex pindex.nHeight

/-- Indexes whose `pskip` is null or comes from `BuildSkip`. -/
inductive Built : CBlockIndex Block → Prop where
  | genesis (block : Block) : Built (.genesis block)
  | unlinked (block : Block) {pprev : CBlockIndex Block} :
      Built pprev → Built (.unlinked block pprev)
  | linked (block : Block) {pprev pskip : CBlockIndex Block} :
      Built pprev → pprev.getAncestor (getSkipHeight (pprev.nHeight + 1)) = .ok (some pskip) →
      Built (.linked block pprev pskip)

/-! ## The walk finds the ancestor -/

lemma pprev_induction {motive : CBlockIndex Block → Prop}
    (step : ∀ p, (∀ q, p.pprev = some q → motive q) → motive p) (p : CBlockIndex Block) :
    motive p := by
  induction p with
  | genesis block => exact step _ nofun
  | unlinked block pprev ih => exact step _ fun q hq => some.inj hq ▸ ih
  | linked block pprev pskip ih _ => exact step _ fun q hq => some.inj hq ▸ ih

variable {p q a b : CBlockIndex Block}

lemma nHeight_of_pprev (h : p.pprev = some q) : p.nHeight = q.nHeight + 1 := by
  cases p <;> simp_all [pprev, nHeight]

lemma ancestors_of_pprev (h : p.pprev = some q) : p.ancestors = p :: q.ancestors := by
  cases p <;> simp_all [pprev, ancestors]

lemma self_mem_ancestors (p : CBlockIndex Block) : p ∈ p.ancestors := by
  cases p <;> simp [ancestors]

lemma mem_ancestors_cases (ha : a ∈ p.ancestors) :
    a = p ∨ ∃ q, p.pprev = some q ∧ a ∈ q.ancestors := by
  cases p <;> simpa [ancestors, pprev] using ha

lemma mem_ancestors_trans {c : CBlockIndex Block} (hab : a ∈ b.ancestors)
    (hbc : b ∈ c.ancestors) : a ∈ c.ancestors := by
  induction c using pprev_induction with
  | step c ih =>
    obtain rfl | ⟨q, hq, hbq⟩ := mem_ancestors_cases hbc
    · exact hab
    · rw [ancestors_of_pprev hq]
      exact mem_cons_of_mem _ (ih q hq hbq)

lemma nHeight_le_of_mem_ancestors (ha : a ∈ p.ancestors) : a.nHeight ≤ p.nHeight := by
  induction p using pprev_induction with
  | step p ih =>
    obtain rfl | ⟨q, hq, haq⟩ := mem_ancestors_cases ha
    · exact le_rfl
    · rw [nHeight_of_pprev hq]
      exact (ih q hq haq).trans (Nat.le_succ _)

lemma Built.of_pprev (hbuilt : p.Built) (h : p.pprev = some q) : q.Built := by
  cases hbuilt with
  | genesis block => nomatch h
  | unlinked block hprev => exact some.inj h ▸ hprev
  | linked block hprev _ => exact some.inj h ▸ hprev

lemma Built.of_mem_ancestors (hbuilt : p.Built) (ha : a ∈ p.ancestors) : a.Built := by
  induction p using pprev_induction with
  | step p ih =>
    obtain rfl | ⟨q, hq, haq⟩ := mem_ancestors_cases ha
    · exact hbuilt
    · exact ih q hq (hbuilt.of_pprev hq) haq

/-- An index with its height, as the two variables of the loop are. -/
private lemma walk_spec (heightWalk : Nat) :
    ∀ {pindex : CBlockIndex Block}, pindex.Built → pindex.nHeight = heightWalk →
      ∀ {height : Nat}, height ≤ heightWalk →
        ∃ a ∈ pindex.ancestors, a.nHeight = height ∧ walk height pindex heightWalk = .ok a := by
  -- strong induction on the height of the walk; `pskip` was itself found by a shorter walk
  induction heightWalk using Nat.strong_induction_on with
  | _ heightWalk ih =>
    intro pindex hbuilt hheight height hle
    rw [walk.eq_def]
    by_cases hmore : heightWalk > height
    · rw [if_pos hmore]
      -- one step back along `pprev` is shared by two cases
      have hprev : ∀ {pprev : CBlockIndex Block}, pprev.Built → pprev.nHeight + 1 = heightWalk →
          ∃ a ∈ pprev.ancestors, a.nHeight = height ∧ walk height pprev (heightWalk - 1) = .ok a :=
        fun hb hh => ih (heightWalk - 1) (by omega) hb (by omega) (by omega)
      cases hbuilt with
      | genesis block =>
        simp only [nHeight] at hheight
        omega
      | unlinked block hb =>
        obtain ⟨a, ha, hah, hwalk⟩ := hprev hb hheight
        exact ⟨a, mem_cons_of_mem _ ha, hah, hwalk⟩
      | @linked block pprev pskip hb hskip =>
        simp only [nHeight] at hheight
        dsimp only
        by_cases hfollows : followsSkip height heightWalk = true
        · rw [if_pos hfollows]
          have hlt : getSkipHeight heightWalk < heightWalk := getSkipHeight_lt (by omega)
          obtain ⟨s, hs, hsh, hfound⟩ := ih pprev.nHeight (by omega) hb rfl
            (show getSkipHeight heightWalk ≤ pprev.nHeight by omega)
          -- `BuildSkip` walked from the predecessor to the same height
          have hsame : s = pskip := by
            have hrange : ¬ ((getSkipHeight heightWalk : Int) > pprev.nHeight ∨
                (getSkipHeight heightWalk : Int) < 0) := by omega
            rw [hheight, getAncestor, if_neg hrange, Int.toNat_natCast, hfound] at hskip
            simpa [Except.map] using hskip
          subst hsame
          obtain ⟨a, ha, hah, hwalk⟩ := ih _ hlt (hb.of_mem_ancestors hs) hsh
            (le_of_followsSkip hfollows)
          exact ⟨a, mem_cons_of_mem _ (mem_ancestors_trans ha hs), hah, hwalk⟩
        · rw [if_neg hfollows]
          obtain ⟨a, ha, hah, hwalk⟩ := hprev hb hheight
          exact ⟨a, mem_cons_of_mem _ ha, hah, hwalk⟩
    · rw [if_neg hmore]
      exact ⟨pindex, self_mem_ancestors pindex, by omega, rfl⟩

lemma eq_of_mem_ancestors (ha : a ∈ p.ancestors) (hb : b ∈ p.ancestors)
    (hheight : a.nHeight = b.nHeight) : a = b := by
  induction p using pprev_induction with
  | step p ih =>
    obtain rfl | ⟨q, hq, haq⟩ := mem_ancestors_cases ha
    · obtain rfl | ⟨q, hq, hbq⟩ := mem_ancestors_cases hb
      · rfl
      · have hle := nHeight_le_of_mem_ancestors hbq
        have hnext := nHeight_of_pprev hq
        omega
    · obtain rfl | ⟨q', hq', hbq⟩ := mem_ancestors_cases hb
      · have hle := nHeight_le_of_mem_ancestors haq
        have hnext := nHeight_of_pprev hq
        omega
      · obtain rfl : q = q' := some.inj (hq.symm.trans hq')
        exact ih q hq haq hbq

/-- **`GetAncestor` returns the ancestor of the given height**, or null outside the chain. -/
theorem Built.getAncestor {pindex : CBlockIndex Block} (hbuilt : pindex.Built) (height : Int) :
    (0 ≤ height ∧ height ≤ pindex.nHeight ∧ ∃ a ∈ pindex.ancestors,
      (a.nHeight : Int) = height ∧ pindex.getAncestor height = .ok (some a)) ∨
    (¬ (0 ≤ height ∧ height ≤ pindex.nHeight) ∧ pindex.getAncestor height = .ok none) := by
  by_cases hrange : height > pindex.nHeight ∨ height < 0
  · exact .inr ⟨by omega, by rw [CBlockIndex.getAncestor, if_pos hrange]⟩
  · obtain ⟨a, ha, hah, hwalk⟩ := walk_spec _ hbuilt rfl
      (show height.toNat ≤ pindex.nHeight by omega)
    refine .inl ⟨by omega, by omega, a, ha, by omega, ?_⟩
    rw [CBlockIndex.getAncestor, if_neg hrange, hwalk]
    rfl

end CBlockIndex

/-- A block index as the node keeps it: `BuildSkip` has run, and the height is an `int`. -/
structure BlockIndex (Block : Type) where
  node : CBlockIndex Block
  built : node.Built
  height_lt : node.nHeight < 2 ^ 31

end HootChain.Chain

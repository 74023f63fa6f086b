import Mathlib.Tactic

/-!
# Merkle Roots

The root of a list of leaves: neighbours are hashed together level by level, the
last node of an odd level with itself. A level on which two paired neighbours are
equal is reported, since such leaves can be left out without changing the root.
-/

namespace HootChain.Foundation

open List

variable {α : Type} (node : α → α → α) (empty : α)

/-- The next level of the tree. -/
def nextLevel : List α → List α
  | [] => []
  | [a] => [node a a]
  | a :: b :: rest => node a b :: nextLevel rest

/-- Some paired neighbours are equal. -/
def hasEqualPair [DecidableEq α] : List α → Bool
  | [] => false
  | [_] => false
  | a :: b :: rest => a == b || hasEqualPair rest

/-- The levels from `level` on, with the flag collected so far. -/
def merkleLevels [DecidableEq α] : Nat → List α → Bool → α × Bool
  | _, [], mutation => (empty, mutation)
  | _, [a], mutation => (a, mutation)
  | 0, _, mutation => (empty, mutation)
  | fuel + 1, level, mutation =>
    merkleLevels fuel (nextLevel node level) (mutation || hasEqualPair level)

/-- The root of the tree over `leaves`, and whether it is ambiguous. A level is shorter
than the one before, so that there are no more levels than leaves. -/
def merkleRoot [DecidableEq α] (leaves : List α) : α × Bool :=
  merkleLevels node empty leaves.length leaves false

/-! ## Collisions -/

variable {node empty}

lemma length_nextLevel (l : List α) : (nextLevel node l).length = (l.length + 1) / 2 := by
  induction l using nextLevel.induct with
  | case1 | case2 => simp [nextLevel]
  | case3 a b rest ih =>
    simp only [nextLevel, length_cons, ih]
    omega

/-- Different pairs of nodes have different hashes. -/
def CollisionFree (node : α → α → α) : Prop := ∀ a b c d, node a b = node c d → a = c ∧ b = d

variable {l₁ l₂ : List α}

section

variable (hnode : CollisionFree node) (hlen : l₁.length = l₂.length)

include hnode hlen

lemma nextLevel_injective (h : nextLevel node l₁ = nextLevel node l₂) : l₁ = l₂ := by
  induction l₁ using nextLevel.induct generalizing l₂ with
  | case1 => exact (length_eq_zero_iff.mp hlen.symm).symm
  | case2 a =>
    obtain ⟨b, rfl⟩ := length_eq_one_iff.mp hlen.symm
    rw [(hnode a a b b (cons.inj h).1).1]
  | case3 a b rest ih =>
    match l₂ with
    | [] => cases hlen
    | [_] => simp at hlen
    | c :: d :: rest' =>
      obtain ⟨hpair, hrest⟩ := cons.inj h
      obtain ⟨rfl, rfl⟩ := hnode a b c d hpair
      rw [ih (by simpa using hlen) hrest]

variable [DecidableEq α]

lemma merkleLevels_injective {fuel : Nat} {m₁ m₂ : Bool} (hfuel : l₁.length ≤ fuel)
    (h : (merkleLevels node empty fuel l₁ m₁).1 = (merkleLevels node empty fuel l₂ m₂).1) :
    l₁ = l₂ := by
  induction fuel generalizing l₁ l₂ m₁ m₂ with
  | zero =>
    rw [length_eq_zero_iff.mp (by omega : l₁.length = 0),
      length_eq_zero_iff.mp (by omega : l₂.length = 0)]
  | succ fuel ih =>
    match l₁, l₂ with
    | [], [] => rfl
    | [a], [b] =>
      have hroot : a = b := h
      rw [hroot]
    | a :: b :: l₁, c :: d :: l₂ =>
      -- the two trees have the same shape, so that their next levels have one length
      have hlevels : nextLevel node (a :: b :: l₁) = nextLevel node (c :: d :: l₂) := by
        apply ih _ _ h
        · rw [length_nextLevel, length_nextLevel, hlen]
        · rw [length_nextLevel]
          simp only [length_cons] at hfuel ⊢
          omega
      exact nextLevel_injective hnode hlen hlevels
    | [], _ :: _ => cases hlen
    | _ :: _, [] => cases hlen
    | [_], _ :: _ :: _ => simp at hlen
    | _ :: _ :: _, [_] => simp at hlen

/-- With a collision-free node hash, lists of one length have different roots. -/
lemma merkleRoot_injective (h : (merkleRoot node empty l₁).1 = (merkleRoot node empty l₂).1) :
    l₁ = l₂ := by
  unfold merkleRoot at h
  rw [← hlen] at h
  exact merkleLevels_injective hnode hlen le_rfl h

end

/-! ## Branches -/

section Branch

variable (node)

/-- The two nodes hashed together above `a`, whose neighbour is `sibling`: an odd index is
that of a right child. -/
def branchPair (index : Int) (a sibling : α) : α × α :=
  if index % 2 = 1 then (sibling, a) else (a, sibling)

/-- The root above the leaf `a` at `index`, given its neighbour on every level. -/
def branchRoot : α → List α → Int → α
  | a, [], _ => a
  | a, sibling :: branch, index =>
    branchRoot (node (branchPair index a sibling).1 (branchPair index a sibling).2) branch
      (index / 2)

/-- The pairs that are hashed on the way to the root. -/
def branchPairs : α → List α → Int → List (α × α)
  | _, [], _ => []
  | a, sibling :: branch, index =>
    branchPair index a sibling ::
      branchPairs (node (branchPair index a sibling).1 (branchPair index a sibling).2) branch
        (index / 2)

/-- Pairs of the two lists that have one hash are equal. -/
def NoCollisionBetween (ps qs : List (α × α)) : Prop :=
  ∀ p ∈ ps, ∀ q ∈ qs, node p.1 p.2 = node q.1 q.2 → p = q

variable {node} {index : Int} {a b : α}

lemma branchPair_injective {s t : α} (h : branchPair index a s = branchPair index b t) :
    a = b ∧ s = t := by
  unfold branchPair at h
  split at h
  · exact (Prod.mk.inj h).symm
  · exact Prod.mk.inj h

/-- One root, one leaf: the branches may be any of the same length. -/
lemma branchRoot_injective {branch₁ branch₂ : List α} (hlen : branch₁.length = branch₂.length)
    (hfree : NoCollisionBetween node (branchPairs node a branch₁ index) (branchPairs node b branch₂ index))
    (h : branchRoot node a branch₁ index = branchRoot node b branch₂ index) :
    a = b ∧ branch₁ = branch₂ := by
  induction branch₁ generalizing a b branch₂ index with
  | nil =>
    rw [length_eq_zero_iff.mp hlen.symm] at h ⊢
    exact ⟨h, rfl⟩
  | cons s branch₁ ih =>
    match branch₂ with
    | [] => cases hlen
    | t :: branch₂ =>
      -- the nodes one level up are equal, and so are the pairs they were hashed from
      obtain ⟨hnode, hrest⟩ := ih (Nat.succ.inj hlen)
        (fun p hp q hq => hfree p (mem_cons_of_mem _ hp) q (mem_cons_of_mem _ hq)) h
      have hpair := hfree _ mem_cons_self _ mem_cons_self hnode
      obtain ⟨rfl, rfl⟩ := branchPair_injective hpair
      exact ⟨rfl, by rw [hrest]⟩

end Branch

end HootChain.Foundation

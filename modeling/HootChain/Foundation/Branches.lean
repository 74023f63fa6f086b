import Mathlib.Data.List.Infix

/-!
# Branches of a Tree

A node of a tree is the list of the nodes on its way to the root, itself first. The ancestors
of a node are then its suffixes, and two nodes lie on one branch if one is a suffix of the
other.
-/

namespace HootChain.Foundation.Branches

open List

variable {α : Type} {a : α} {t z m p q r low : List α} {ps : List (List α)}

/-! ## One branch -/

/-- Both nodes lie on one branch. -/
def Comparable (t z : List α) : Prop := t <:+ z ∨ z <:+ t

instance [DecidableEq α] (t z : List α) : Decidable (Comparable t z) :=
  inferInstanceAs (Decidable (_ ∨ _))

lemma comparable_of_suffix (hp : p <:+ m) (hq : q <:+ m) : Comparable p q :=
  suffix_or_suffix_of_suffix hp hq

section

variable (h : Comparable t z)

include h

lemma Comparable.symm : Comparable z t := Or.symm h

/-- A node further down stays on the branch. -/
lemma Comparable.of_suffix (hp : p <:+ t) : Comparable p z := by
  rcases h with htz | hzt
  · exact .inl (hp.trans htz)
  · exact comparable_of_suffix hp hzt

/-- Neither does moving to a child that is on the branch, or beyond its end. -/
lemma Comparable.push
    (hnext : z.length < (a :: t).length ∨ (a :: t) <:+ z) : Comparable (a :: t) z := by
  rcases hnext with hlong | hon
  · right
    rcases h with htz | hzt
    · rw [htz.eq_of_length_le (Nat.le_of_lt_succ hlong)]
      exact suffix_cons a z
    · exact hzt.trans (suffix_cons a t)
  · exact .inl hon

lemma Comparable.suffix_of_length_le (hlen : t.length ≤ z.length) : t <:+ z := by
  rcases h with htz | hzt
  · exact htz
  · rw [hzt.eq_of_length_le hlen]

end

/-- A node on a branch is there at its own distance from the root. -/
lemma drop_eq_iff_suffix : m.drop (m.length - p.length) = p ↔ p <:+ m :=
  eq_comm.trans suffix_iff_eq_drop.symm

lemma suffix_tail_of_ne (h : p <:+ m) (hne : p ≠ m) : p <:+ m.tail := by
  cases m with
  | nil => exact absurd (suffix_nil.mp h) hne
  | cons a m => exact (suffix_cons_iff.mp h).resolve_left hne

lemma exists_cons_suffix (h : p <:+ m) (hne : p ≠ m) : ∃ a, (a :: p) <:+ m := by
  obtain ⟨front, rfl⟩ := h
  obtain rfl | ⟨front, a, rfl⟩ := eq_nil_or_concat front
  · exact absurd rfl hne
  · exact ⟨a, front, by simp⟩

lemma not_cons_suffix (a : α) (t : List α) : ¬ (a :: t) <:+ t :=
  fun h => absurd h.length_le (by simp)

/-! ## Forks -/

section Forks

variable [DecidableEq α]

/-- The last node of the branch of `m` that is on the branch of `t`. -/
def fork (t : List α) : List α → List α
  | [] => []
  | a :: m => if (a :: m) <:+ t then a :: m else fork t m

/-- The nodes of the branch of `m` that are not on the branch of `t`, from the fork on. -/
def pending (t : List α) : List α → List (List α)
  | [] => []
  | a :: m => if (a :: m) <:+ t then [] else pending t m ++ [a :: m]

/-- The nodes of the branch of `m` above `low`, from its end. -/
def above (low : List α) : List α → List (List α)
  | [] => []
  | a :: m => if a :: m = low then [] else (a :: m) :: above low m

lemma fork_suffix (t m : List α) : fork t m <:+ t ∧ fork t m <:+ m := by
  induction m with
  | nil => exact ⟨nil_suffix, nil_suffix⟩
  | cons a m ih =>
    rw [fork]
    split
    case isTrue hon => exact ⟨hon, suffix_rfl⟩
    case isFalse => exact ⟨ih.1, ih.2.trans (suffix_cons a m)⟩

lemma suffix_fork (ht : p <:+ t) (hm : p <:+ m) : p <:+ fork t m := by
  induction m with
  | nil => exact hm
  | cons a m ih =>
    rw [fork]
    split
    case isTrue => exact hm
    case isFalse hoff =>
      refine ih ((suffix_cons_iff.mp hm).resolve_left fun heq => hoff ?_)
      rw [← heq]
      exact ht

lemma fork_eq_left (h : t <:+ m) : fork t m = t :=
  (fork_suffix t m).1.eq_of_length_le (suffix_fork suffix_rfl h).length_le

lemma mem_pending (h : p ∈ pending t m) : p <:+ m ∧ ¬ p <:+ t := by
  induction m with
  | nil => cases h
  | cons a m ih =>
    rw [pending] at h
    split at h
    case isTrue => cases h
    case isFalse hoff =>
      rcases mem_append.mp h with hmem | hlast
      · exact ⟨(ih hmem).1.trans (suffix_cons a m), (ih hmem).2⟩
      · rw [mem_singleton.mp hlast]
        exact ⟨suffix_rfl, hoff⟩

lemma mem_above (hlow : low <:+ m) (hne : low ≠ []) :
    p ∈ above low m ↔ p <:+ m ∧ low <:+ p ∧ p ≠ low := by
  induction m with
  | nil => exact absurd (suffix_nil.mp hlow) hne
  | cons a m ih =>
    rw [above]
    split
    case isTrue heq =>
      rw [heq]
      refine iff_of_false not_mem_nil fun ⟨hp, hlp, hpne⟩ => ?_
      exact hpne (hp.eq_of_length_le hlp.length_le)
    case isFalse hcons =>
      have hlow' : low <:+ m := (suffix_cons_iff.mp hlow).resolve_left fun heq => hcons heq.symm
      rw [mem_cons, ih hlow', suffix_cons_iff]
      constructor
      · rintro (rfl | ⟨hp, hrest⟩)
        · exact ⟨.inl rfl, hlow, hcons⟩
        · exact ⟨.inr hp, hrest⟩
      · rintro ⟨rfl | hp, hrest⟩
        · exact .inl rfl
        · exact .inr ⟨hp, hrest⟩

end Forks

/-! ## Climbing a branch -/

/-- The listed nodes lead from the first node to the last, one child after the other. -/
inductive Climb : List α → List (List α) → List α → Prop where
  | done (t : List α) : Climb t [] t
  | child (a : α) (t : List α) {ps : List (List α)} {m : List α} (h : Climb (a :: t) ps m) :
      Climb t ((a :: t) :: ps) m

lemma Climb.snoc (h : Climb t ps m) : Climb t (ps ++ [a :: m]) (a :: m) := by
  induction h with
  | done t => exact .child a t (.done _)
  | child b t h ih => exact .child b t ih

lemma Climb.suffix (h : Climb t ps m) : t <:+ m := by
  induction h with
  | done t => exact suffix_rfl
  | child a t h ih => exact (suffix_cons a t).trans ih

/-- The nodes between a fork and the end of a branch, one child after the other. -/
lemma climb_pending [DecidableEq α] (t m : List α) : Climb (fork t m) (pending t m) m := by
  induction m with
  | nil => exact .done []
  | cons a m ih =>
    rw [fork, pending]
    split
    case isTrue => exact .done _
    case isFalse => exact ih.snoc

end HootChain.Foundation.Branches

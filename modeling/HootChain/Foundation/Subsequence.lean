import Mathlib.Data.List.Destutter
import Mathlib.Data.List.TakeWhile
import Mathlib.Tactic

/-!
# Greedy Subsequence Matching

A matcher that looks for the items of one list in another, each item at or
after the place where the previous one was found. Since the search restarts
*on* the matched place and not behind it, consecutive equal items may share
one place.
-/

namespace HootChain.Foundation

open List Nat

variable {α : Type*} [DecidableEq α]

/-- Find the items of `ps` in `outs`; the search for the next item starts at the
place of the last one. -/
def scanFrom : List α → List α → Bool
  | [], _ => true
  | p :: ps, outs =>
    match outs.dropWhile (· ≠ p) with
    | [] => false
    | out :: rest => scanFrom ps (out :: rest)

/-- Runs of equal items reduced to one item each. -/
def collapse (ps : List α) : List α := ps.destutter (· ≠ ·)

/-! ## Searching for one item -/

variable {p : α} {outs ps : List α}

lemma dropWhile_ne_of_notMem (h : p ∉ outs) : outs.dropWhile (· ≠ p) = [] :=
  dropWhile_eq_nil_iff.mpr fun x hx => by simpa using ne_of_mem_of_not_mem hx h

/-- A successful search stops at the item. -/
lemma exists_dropWhile_ne_of_mem (h : p ∈ outs) : ∃ rest, outs.dropWhile (· ≠ p) = p :: rest := by
  have hhead := head?_dropWhile_not (· ≠ p) outs
  cases hdrop : outs.dropWhile (· ≠ p) with
  | nil => simpa using dropWhile_eq_nil_iff.mp hdrop p h
  | cons out rest =>
    rw [hdrop] at hhead
    exact ⟨rest, by simpa using hhead⟩

/-- A subsequence that starts with `p` still fits after skipping to the first `p`. -/
lemma cons_sublist_dropWhile_ne {t : List α} (h : (p :: t).Sublist outs) :
    (p :: t).Sublist (outs.dropWhile (· ≠ p)) := by
  induction outs with
  | nil => cases h
  | cons out outs ih =>
    by_cases hout : out = p
    · simpa [hout] using h
    · rw [dropWhile_cons_of_pos (by simpa using hout)]
      cases h with
      | cons _ htail => exact ih htail
      | cons_cons _ _ => exact absurd rfl hout

/-- Searching for the first item loses no subsequence. -/
lemma exists_dropWhile_ne_iff {t : List α} :
    (∃ rest, outs.dropWhile (· ≠ p) = p :: rest ∧ (p :: t).Sublist (p :: rest)) ↔
      (p :: t).Sublist outs := by
  constructor
  · rintro ⟨rest, hdrop, hsub⟩
    rw [← hdrop] at hsub
    exact hsub.trans (dropWhile_sublist _)
  · intro hsub
    obtain ⟨rest, hdrop⟩ := exists_dropWhile_ne_of_mem (hsub.subset mem_cons_self)
    refine ⟨rest, hdrop, ?_⟩
    rw [← hdrop]
    exact cons_sublist_dropWhile_ne hsub

/-! ## The matcher -/

lemma scanFrom_cons_eq_true :
    scanFrom (p :: ps) outs = true ↔
      ∃ rest, outs.dropWhile (· ≠ p) = p :: rest ∧ scanFrom ps (p :: rest) = true := by
  by_cases hmem : p ∈ outs
  · obtain ⟨rest, hrest⟩ := exists_dropWhile_ne_of_mem hmem
    rw [scanFrom, hrest]
    constructor
    · intro h
      exact ⟨rest, rfl, h⟩
    · rintro ⟨rest', hrest', h⟩
      cases hrest'
      exact h
  · rw [scanFrom, dropWhile_ne_of_notMem hmem]
    simp

lemma exists_destutter'_cons (p : α) (ps : List α) : ∃ t, ps.destutter' (· ≠ ·) p = p :: t := by
  induction ps with
  | nil => exact ⟨[], rfl⟩
  | cons q qs ih =>
    by_cases hpq : p = q
    · rw [destutter'_cons_neg _ (by simpa using hpq)]
      exact ih
    · exact ⟨_, destutter'_cons_pos _ hpq⟩

/-- With the search standing on `p`, the rest is found exactly when the collapsed
list beginning with `p` is a subsequence of what is left. -/
lemma scanFrom_at_iff (p : α) (ps rest : List α) :
    scanFrom ps (p :: rest) = true ↔ (ps.destutter' (· ≠ ·) p).Sublist (p :: rest) := by
  induction ps generalizing p rest with
  | nil => simp [scanFrom]
  | cons q qs ih =>
    rw [scanFrom_cons_eq_true]
    by_cases hpq : p = q
    · -- an equal neighbour is found on the spot where the search stands
      subst hpq
      rw [destutter'_cons_neg _ (by simp), ← ih p rest]
      simp
    · rw [destutter'_cons_pos _ hpq, cons_sublist_cons, dropWhile_cons_of_pos (by simpa using hpq)]
      obtain ⟨t, ht⟩ := exists_destutter'_cons q qs
      simp only [ih, ht]
      exact exists_dropWhile_ne_iff

/-- The matcher accepts exactly the lists whose collapsed form is a subsequence. -/
lemma scanFrom_iff (ps outs : List α) : scanFrom ps outs = true ↔ (collapse ps).Sublist outs := by
  cases ps with
  | nil => simp [scanFrom, collapse]
  | cons p ps =>
    rw [scanFrom_cons_eq_true, collapse, destutter_cons']
    obtain ⟨t, ht⟩ := exists_destutter'_cons p ps
    simp only [scanFrom_at_iff, ht]
    exact exists_dropWhile_ne_iff

/-- Padding that contains no item of `ps` does not help to embed `ps`. -/
lemma not_sublist_collapse_append {pad : List α} (hrun : ¬ ps.IsChain (· ≠ ·))
    (hpad : ∀ x ∈ pad, x ∉ ps) : ¬ ps.Sublist (collapse ps ++ pad) := by
  intro hsub
  have hfilter := hsub.filter (· ∈ ps)
  have hleft : (collapse ps).filter (· ∈ ps) = collapse ps :=
    filter_eq_self.mpr fun x hx => by
      simpa using (destutter_sublist (· ≠ ·) ps).subset hx
  have hright : pad.filter (· ∈ ps) = [] :=
    filter_eq_nil_iff.mpr fun x hx => by simpa using hpad x hx
  rw [filter_append, hleft, hright, append_nil,
    filter_eq_self.mpr (fun x hx => by simpa using hx)] at hfilter
  have heq : collapse ps = ps := (destutter_sublist (· ≠ ·) ps).antisymm hfilter
  exact hrun ((destutter_eq_self_iff (· ≠ ·) ps).mp heq)

/-! ## Items beside a subsequence -/

section Beside

variable {items ps outs pad : List α} {x : α}

lemma mem_of_mem_collapse (h : x ∈ collapse ps) : x ∈ ps :=
  (ps.destutter_sublist (· ≠ ·)).subset h

/-- Different items that are not in `ps` have places of their own beside those of `ps`. -/
lemma subperm_append_collapse (hnodup : items.Nodup) (hdisjoint : ∀ x ∈ items, x ∉ ps)
    (hitems : ∀ x ∈ items, x ∈ outs) (hps : (collapse ps).Sublist outs) :
    (items ++ collapse ps).Subperm outs := by
  rw [subperm_ext_iff]
  intro x _
  rw [count_append]
  by_cases hx : x ∈ items
  · have hnot : x ∉ collapse ps := fun h => hdisjoint x hx (mem_of_mem_collapse h)
    rw [count_eq_one_of_mem hnodup hx, count_eq_zero.mpr hnot]
    exact one_le_count_iff.mpr (hitems x hx)
  · rw [count_eq_zero.mpr hx, zero_add]
    exact hps.count_le x

/-- The shortest list with all items and the collapsed `ps` as a subsequence. -/
def shared (items ps : List α) : List α := collapse ps ++ items.dedup.filter (· ∉ ps)

lemma mem_destutter'_of_mem {p : α} (h : x ∈ p :: ps) : x ∈ ps.destutter' (· ≠ ·) p := by
  induction ps generalizing p with
  | nil => exact h
  | cons q ps ih =>
    by_cases hpq : p = q
    · subst hpq
      rw [destutter'_cons_neg _ (by simp)]
      exact ih (by simpa using h)
    · rw [destutter'_cons_pos _ hpq]
      rcases mem_cons.mp h with rfl | hmem
      · exact mem_cons_self ..
      · exact mem_cons_of_mem _ (ih hmem)

lemma mem_collapse : x ∈ collapse ps ↔ x ∈ ps := by
  refine ⟨mem_of_mem_collapse, fun h => ?_⟩
  cases ps with
  | nil => cases h
  | cons p ps => exact mem_destutter'_of_mem h

lemma mem_shared (h : x ∈ items) : x ∈ shared items ps := by
  by_cases hps : x ∈ ps
  · exact mem_append_left _ (mem_collapse.mpr hps)
  · exact mem_append_right _ (by simp [h, hps])

/-- It fits into every list that has all items and the collapsed `ps`. -/
lemma shared_subperm (hitems : ∀ x ∈ items, x ∈ outs) (hps : (collapse ps).Sublist outs) :
    (shared items ps).Subperm outs := by
  have hsub : (items.dedup.filter (· ∉ ps) ++ collapse ps).Subperm outs := by
    apply subperm_append_collapse (items.nodup_dedup.filter _) _ _ hps
    · intro x hx
      simpa using (mem_filter.mp hx).2
    · intro x hx
      exact hitems x (mem_dedup.mp (mem_filter.mp hx).1)
  exact perm_append_comm.subperm_right.mp hsub

lemma count_shared (hx : x ∈ items) :
    (shared items ps).count x = if x ∈ ps then (collapse ps).count x else 1 := by
  unfold shared
  rw [count_append]
  split
  · next hmem =>
    have hnot : x ∉ items.dedup.filter (· ∉ ps) := by simp [hmem]
    rw [count_eq_zero.mpr hnot, add_zero]
  · next hmem =>
    have hnot : x ∉ collapse ps := fun h => hmem (mem_of_mem_collapse h)
    rw [count_eq_zero.mpr hnot, zero_add, count_filter (by simpa using hmem)]
    exact count_eq_one_of_mem items.nodup_dedup (mem_dedup.mpr hx)

/-- In it, two equal items share a place, and so does an item that is in `ps`. -/
lemma not_subperm_shared_append
    (h : ¬ (items.Nodup ∧ ∀ x ∈ items, x ∉ ps)) (hpad : ∀ x ∈ pad, x ∉ items) :
    ¬ (items ++ collapse ps).Subperm (shared items ps ++ pad) := by
  intro hsub
  have hcount : ∀ x ∈ items, items.count x + (collapse ps).count x ≤
      if x ∈ ps then (collapse ps).count x else 1 := by
    intro x hx
    have hnot : x ∉ pad := fun hmem => hpad x hmem hx
    have hle := hsub.count_le x
    rw [count_append, count_append, count_shared hx, count_eq_zero.mpr hnot] at hle
    simpa using hle
  refine h ⟨nodup_iff_count_le_one.mpr fun x => ?_, fun x hx hmem => ?_⟩
  · by_cases hx : x ∈ items
    · have hle := hcount x hx
      split at hle <;> omega
    · rw [count_eq_zero.mpr hx]
      omega
  · have hle := hcount x hx
    have hpos := one_le_count_iff.mpr hx
    rw [if_pos hmem] at hle
    omega

end Beside

end HootChain.Foundation

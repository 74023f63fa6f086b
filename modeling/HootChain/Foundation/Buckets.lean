import Mathlib.Tactic

/-!
# Buckets

A map from keys to lists that grows by appending to the list of a key, as an
association list. The order of the keys is that of their first use; users look
at the contents of the buckets only.
-/

namespace HootChain.Foundation

open List

variable {κ α : Type*}

/-- A map from keys to lists. -/
abbrev Buckets (κ α : Type*) := List (κ × List α)

namespace Buckets

/-- `a` is in the bucket of `key`. -/
def Holds (b : Buckets κ α) (key : κ) (a : α) : Prop := ∃ as, (key, as) ∈ b ∧ a ∈ as

/-- The contents of all buckets. -/
def items (b : Buckets κ α) : List α := b.flatMap Prod.snd

variable {b : Buckets κ α} {a x : α} {key : κ} {as : List α}

lemma mem_items : a ∈ b.items ↔ ∃ key, b.Holds key a := by
  simp [items, Holds]

lemma holds_cons {p : κ × List α} {rest : Buckets κ α} :
    Holds (p :: rest) key a ↔ (key = p.1 ∧ a ∈ p.2) ∨ Holds rest key a := by
  simp [Holds, or_and_right, exists_or, Prod.ext_iff, and_assoc]

/-! ## Filling -/

section Push

variable [DecidableEq κ]

/-- Append `a` to the bucket of `key`. -/
def push (key : κ) (a : α) : Buckets κ α → Buckets κ α
  | [] => [(key, [a])]
  | (k, as) :: rest => if k = key then (k, as ++ [a]) :: rest else (k, as) :: push key a rest

/-- What a push adds. -/
lemma holds_push {key k : κ} {a x : α} {b : Buckets κ α} :
    (b.push key a).Holds k x ↔ b.Holds k x ∨ (k = key ∧ x = a) := by
  induction b with
  | nil => simp [push, Holds]
  | cons p rest ih =>
    rw [push]
    split
    · next heq =>
      subst heq
      simp only [holds_cons, mem_append, mem_singleton]
      tauto
    · rw [holds_cons, holds_cons]
      tauto

/-- Sort a list into buckets by a key. -/
def groupBy (key : α → κ) (l : List α) : Buckets κ α := l.foldl (fun b a => b.push (key a) a) []

lemma mem_items_foldl_push (key : α → κ) (l : List α) (b : Buckets κ α) (x : α) :
    x ∈ items (l.foldl (fun b a => b.push (key a) a) b) ↔ x ∈ b.items ∨ x ∈ l := by
  induction l generalizing b with
  | nil => simp
  | cons a l ih =>
    rw [foldl_cons, ih, mem_items, mem_items, mem_cons]
    simp only [holds_push, exists_or, exists_eq_left]
    tauto

/-- Grouping a list by a key loses and invents nothing. -/
lemma mem_items_groupBy {key : α → κ} {l : List α} {x : α} :
    x ∈ items (groupBy key l) ↔ x ∈ l := by
  rw [groupBy, mem_items_foldl_push]
  simp [items]

end Push

/-! ## Emptying from the back -/

/-- The last item of every bucket. -/
def lasts (b : Buckets κ α) : List α := b.filterMap fun p => p.2.getLast?

/-- The buckets without their last items; a bucket that becomes empty goes away. -/
def dropLasts (b : Buckets κ α) : Buckets κ α :=
  (b.map fun p => (p.1, p.2.dropLast)).filter fun p => !p.2.isEmpty

lemma mem_iff_getLast?_or_dropLast : x ∈ as ↔ as.getLast? = some x ∨ x ∈ as.dropLast := by
  rcases eq_nil_or_concat as with rfl | ⟨init, last, rfl⟩
  · simp
  · simp [or_comm, eq_comm]

lemma mem_dropLasts :
    (key, as) ∈ b.dropLasts ↔ ∃ as', (key, as') ∈ b ∧ as = as'.dropLast ∧ as ≠ [] := by
  simp only [dropLasts, mem_filter, mem_map, Prod.exists, Prod.mk.injEq]
  constructor
  · rintro ⟨⟨k, as', hmem, rfl, rfl⟩, hne⟩
    exact ⟨as', hmem, rfl, by simpa using hne⟩
  · rintro ⟨as', hmem, rfl, hne⟩
    exact ⟨⟨key, as', hmem, rfl, rfl⟩, by simpa using hne⟩

/-- The last items of the buckets, and what stays without them. -/
lemma mem_items_iff_lasts : x ∈ b.items ↔ x ∈ b.lasts ∨ x ∈ b.dropLasts.items := by
  simp only [mem_items, Holds, mem_dropLasts, lasts, mem_filterMap, Prod.exists]
  constructor
  · rintro ⟨key, as, hmem, hx⟩
    rcases mem_iff_getLast?_or_dropLast.mp hx with hlast | hinit
    · exact .inl ⟨key, as, hmem, hlast⟩
    · exact .inr ⟨key, as.dropLast, ⟨as, hmem, rfl, ne_nil_of_mem hinit⟩, hinit⟩
  · rintro (⟨key, as, hmem, hlast⟩ | ⟨key, _, ⟨as, hmem, rfl, -⟩, hinit⟩)
    · exact ⟨key, as, hmem, mem_iff_getLast?_or_dropLast.mpr (.inl hlast)⟩
    · exact ⟨key, as, hmem, mem_iff_getLast?_or_dropLast.mpr (.inr hinit)⟩

/-- Buckets and items together, which every `dropLasts` makes fewer. -/
def size (b : Buckets κ α) : Nat := (b.map fun p => p.2.length + 1).sum

lemma size_dropLasts_add_length_le (b : Buckets κ α) : b.dropLasts.size + b.length ≤ b.size := by
  induction b with
  | nil => exact Nat.le_refl _
  | cons p rest ih =>
    have hkeep : size (dropLasts (p :: rest)) ≤ p.2.length + size (dropLasts rest) := by
      cases hp : p.2.dropLast with
      | nil => simp [dropLasts, size, hp]
      | cons a as =>
        have hlen : (a :: as).length = p.2.length - 1 := by rw [← hp, length_dropLast]
        simp only [length_cons] at hlen
        simp only [dropLasts, size, map_cons, filter_cons, hp, isEmpty_cons,
          Bool.not_false, if_true, sum_cons, length_cons]
        omega
    have hsize : size (p :: rest) = p.2.length + 1 + size rest := by simp [size]
    rw [length_cons]
    omega

lemma size_dropLasts_lt (hne : b ≠ []) : b.dropLasts.size < b.size := by
  have := size_dropLasts_add_length_le b
  have := length_pos_iff.mpr hne
  omega

end Buckets

end HootChain.Foundation

import Mathlib.Data.List.Sort

/-!
# Cutting a Sorted List

The first `n` items of a list that is sorted by a key are determined by the items alone if
some bound on the key holds for exactly `n` of them. Otherwise the cut goes through items with
equal keys, and a sort is free to put either of them first.
-/

namespace HootChain.Foundation.SortedCut

open List

variable {α : Type} {key : α → Int} {l : List α} {n : Nat}

/-- Sorted by the key, equal keys in any order. -/
def Sorted (key : α → Int) (l : List α) : Prop := l.Pairwise fun a b => key a ≤ key b

/-- Exactly `n` items have a key up to some bound. -/
def CutsAt (key : α → Int) (n : Nat) (l : List α) : Prop :=
  ∃ x, (l.filter fun a => key a ≤ x).length = n

/-- A property that is kept towards the front holds for the first items, and then for none. -/
lemma takeWhile_dropWhile_eq_filter {p : α → Bool}
    (h : l.Pairwise fun a b => p b = true → p a = true) :
    l.takeWhile p = l.filter p ∧ l.dropWhile p = l.filter (!p ·) := by
  induction l with
  | nil => exact ⟨rfl, rfl⟩
  | cons a l ih =>
    obtain ⟨hfirst, hrest⟩ := pairwise_cons.mp h
    cases ha : p a with
    | true => simp [ha, ih hrest]
    | false =>
      have hnone : ∀ b ∈ l, p b = false := fun b hb =>
        Bool.eq_false_of_not_eq_true fun hp => by simp [hfirst b hb hp] at ha
      have hin : l.filter p = [] := by simpa using hnone
      have hout : l.filter (!p ·) = l := by simpa using hnone
      simp [ha, hin, hout]

variable {l' pre post : List α} {a : α}

lemma CutsAt.perm (h : CutsAt key n l) (hperm : l.Perm l') : CutsAt key n l' := by
  obtain ⟨x, hx⟩ := h
  exact ⟨x, (hperm.filter _).length_eq.symm.trans hx⟩

/-! ## Cuts between different keys -/

/-- A cut between different keys takes the items up to a bound. -/
lemma take_eq_filter {x : Int} (hsorted : Sorted key l)
    (hlen : (l.filter fun a => key a ≤ x).length = n) :
    l.take n = l.filter fun a => key a ≤ x := by
  have hfront : l.Pairwise fun a b => decide (key b ≤ x) = true → decide (key a ≤ x) = true := by
    refine hsorted.imp fun hab => ?_
    simp only [decide_eq_true_eq]
    omega
  rw [← (takeWhile_dropWhile_eq_filter hfront).1] at hlen ⊢
  rw [← hlen, ← prefix_iff_eq_take.mp ( takeWhile_prefix _)]

/-- Two sorted lists with the same items agree on what such a cut takes. -/
lemma mem_take_iff (hl : Sorted key l) (hl' : Sorted key l') (hperm : l.Perm l')
    (hcut : CutsAt key n l) (a : α) : a ∈ l.take n ↔ a ∈ l'.take n := by
  obtain ⟨x, hx⟩ := hcut
  have hx' : (l'.filter fun a => key a ≤ x).length = n := (hperm.filter _).length_eq.symm.trans hx
  rw [take_eq_filter hl hx, take_eq_filter hl' hx']
  exact (hperm.filter _).mem_iff

/-! ## Cuts through equal keys -/

/-- Any other cut separates two items with one key. -/
lemma exists_tie (hsorted : Sorted key l) (hlong : n + 1 < l.length)
    (hcut : ¬ CutsAt key (n + 1) l) :
    ∃ pre a b post, l = pre ++ a :: b :: post ∧ pre.length = n ∧ key a = key b := by
  obtain ⟨a, ha⟩ : ∃ a, l.drop n = a :: l.drop (n + 1) := ⟨l[n], drop_eq_getElem_cons (by omega)⟩
  obtain ⟨b, hb⟩ : ∃ b, l.drop (n + 1) = b :: l.drop (n + 2) :=
    ⟨l[n + 1], drop_eq_getElem_cons hlong⟩
  have hsplit : l = l.take n ++ a :: b :: l.drop (n + 2) := by
    rw [← hb, ← ha, take_append_drop]
  have hlen : (l.take n).length = n := length_take_of_le (by omega)
  refine ⟨l.take n, a, b, l.drop (n + 2), hsplit, hlen, ?_⟩
  rw [hsplit, Sorted, pairwise_append] at hsorted
  obtain ⟨-, htail, hcross⟩ := hsorted
  obtain ⟨hfirst, htail⟩ := pairwise_cons.mp htail
  refine le_antisymm (hfirst b mem_cons_self) ?_
  by_contra hlt
  -- otherwise the key of the first of the two is a bound for exactly `n + 1` items
  refine hcut ⟨key a, ?_⟩
  have hpre : (l.take n).filter (fun c => key c ≤ key a) = l.take n := by
    rw [filter_eq_self]
    intro c hc
    simpa using hcross c hc a mem_cons_self
  have hpost : (b :: l.drop (n + 2)).filter (fun c => key c ≤ key a) = [] := by
    rw [filter_eq_nil_iff]
    intro c hc
    have hbc : key b ≤ key c := by
      rcases mem_cons.mp hc with rfl | hc
      · exact le_rfl
      · exact (pairwise_cons.mp htail).1 c hc
    simp only [decide_eq_true_eq]
    omega
  rw [hsplit, filter_append, hpre, filter_cons_of_pos (by simp), hpost]
  simp [hlen]

/-- The items at positions `n` and `n + 1` exchanged, if they have one key. -/
def swapTies (key : α → Int) (n : Nat) (l : List α) : List α :=
  match l.drop n with
  | a :: b :: post => if key a = key b then l.take n ++ b :: a :: post else l
  | _ => l

lemma swapTies_eq {b : α} (hlen : pre.length = n) (hkey : key a = key b) :
    swapTies key n (pre ++ a :: b :: post) = pre ++ b :: a :: post := by
  subst hlen
  simp [swapTies, hkey]

lemma take_succ_append (hlen : pre.length = n) :
    (pre ++ a :: post).take (n + 1) = pre ++ [a] := by
  rw [take_append, take_of_length_le (by omega)]
  simp [hlen]

/-- A list is left alone unless it has a tie at the position. -/
lemma swapTies_cases (key : α → Int) (n : Nat) (l : List α) : swapTies key n l = l ∨
    ∃ pre a b post, l = pre ++ a :: b :: post ∧ key a = key b ∧
      swapTies key n l = pre ++ b :: a :: post := by
  unfold swapTies
  split
  case h_1 a b post hdrop =>
    split
    case isTrue hkey =>
      refine .inr ⟨l.take n, a, b, post, ?_, hkey, rfl⟩
      rw [← hdrop, take_append_drop]
    case isFalse => exact .inl rfl
  case h_2 => exact .inl rfl

lemma perm_swapTies (key : α → Int) (n : Nat) (l : List α) : (swapTies key n l).Perm l := by
  rcases swapTies_cases key n l with heq | ⟨pre, a, b, post, hl, -, heq⟩
  · rw [heq]
  · rw [heq, hl]
    exact (List.Perm.swap a b post).append_left pre

lemma sorted_swapTies (hsorted : Sorted key l) (n : Nat) : Sorted key (swapTies key n l) := by
  rcases swapTies_cases key n l with heq | ⟨pre, a, b, post, hl, hkey, heq⟩
  · rw [heq]
    exact hsorted
  · -- each of the two has the key of the other
    rw [hl] at hsorted
    rw [heq]
    simp only [Sorted, pairwise_append, pairwise_cons, mem_cons, forall_eq_or_imp] at hsorted ⊢
    obtain ⟨hpre, ⟨⟨-, hpost⟩, hpost', hrest⟩, hcross⟩ := hsorted
    refine ⟨hpre, ⟨⟨hkey.ge, hpost'⟩, hpost, hrest⟩, fun c hc => ?_⟩
    obtain ⟨ha, hb, hpost''⟩ := hcross c hc
    exact ⟨hb, ha, hpost''⟩

end HootChain.Foundation.SortedCut

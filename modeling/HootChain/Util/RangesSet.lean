import HootChain.Foundation.SortedCut
import Mathlib.Data.List.TakeWhile
import Mathlib.Tactic

/-!
# Sets of Numbers as Ranges (`util/ranges_set.cpp`)

`CRangesSet` keeps a set of 64-bit numbers as half-open ranges, and merges a range with
the ones next to it. The number after the largest one is zero: a range that ends there
has a `past` below its `begin`, and contains nothing.

As long as the largest number is not added, the ranges are disjoint, not adjacent, and
stand for the numbers that were added.
-/

namespace HootChain.Util

open List List.Sublist

/-! ## Ranges -/

/-- `CRangesSet::Range`, the numbers from `begin` up to but not including `past`. -/
structure Range where
  begin : Nat
  past : Nat
  deriving DecidableEq

/-- `operator<`. -/
def Range.less (a b : Range) : Bool :=
  if a.begin ≠ b.begin then a.begin < b.begin else a.past < b.past

/-- The largest `uint64_t`. -/
def uint64Max : Nat := 2 ^ 64 - 1

/-- `value + 1` for a `uint64_t`. -/
def nextUInt64 (value : Nat) : Nat := (value + 1) % 2 ^ 64

/-- `CRangesSet`: a `std::set`, in its order. -/
structure CRangesSet where
  ranges : List Range := []
  deriving DecidableEq

namespace CRangesSet

section

variable (s : CRangesSet) (value : Nat)

/-- The elements before `lower_bound({value, value})`. -/
def before : List Range := s.ranges.takeWhile (·.less ⟨value, value⟩)

/-- The elements from `lower_bound({value, value})` on. -/
def after : List Range := s.ranges.dropWhile (·.less ⟨value, value⟩)

def isEmpty : Bool := s.ranges.isEmpty

def contains : Bool :=
  (s.after value).head?.any (fun it => it.begin = value) ||
    (s.before value).getLast?.any fun prev => prev.begin ≤ value && prev.past > value

/-- `insert` of a `std::set`; `none` where the element is there already. -/
def insertRange (r : Range) (ranges : List Range) : Option (List Range) :=
  if r ∈ ranges then none
  else some (ranges.takeWhile (·.less r) ++ r :: ranges.dropWhile (·.less r))

/-- The merge with the range before: the ranges that stay, and the begin of the new range. -/
def mergePrev (value : Nat) (before : List Range) : List Range × Nat :=
  match before.getLast? with
  | some prev => if prev.past = value then (before.dropLast, prev.begin) else (before, value)
  | none => (before, value)

/-- The merge with the range after: the end of the new range, and the ranges that stay. -/
def mergeNext (value : Nat) : List Range → Nat × List Range
  | [] => (nextUInt64 value, [])
  | next :: rest =>
    if next.begin = nextUInt64 value then (next.past, rest) else (nextUInt64 value, next :: rest)

/-- What `Add` can come to. -/
inductive AddResult where
  /-- It returns false. -/
  | present
  /-- It returns true, and the set is changed. -/
  | added (s : CRangesSet)
  /-- `assert(ret.second)` fails. -/
  | aborted

def add : AddResult :=
  if s.contains value then .present
  else
    let prev := mergePrev value (s.before value)
    let next := mergeNext value (s.after value)
    match insertRange ⟨prev.2, next.1⟩ (prev.1 ++ next.2) with
    | none => .aborted
    | some ranges => .added ⟨ranges⟩

end

/-! ## Well-formed sets -/

/-- The numbers that the ranges stand for. -/
def Covers (ranges : List Range) (value : Nat) : Prop :=
  ∃ r ∈ ranges, r.begin ≤ value ∧ value < r.past

/-- The ranges are not empty, in order and not adjacent, and do not reach past the end of
the numbers. -/
structure WellFormed (s : CRangesSet) : Prop where
  apart : s.ranges.Pairwise fun r r' => r.past < r'.begin
  nonempty : ∀ r ∈ s.ranges, r.begin < r.past
  bounded : ∀ r ∈ s.ranges, r.past ≤ uint64Max

lemma wellFormed_empty : WellFormed {} := ⟨List.Pairwise.nil, by simp, by simp⟩

variable {s : CRangesSet} {value : Nat} {r : Range}

lemma before_append_after (s : CRangesSet) (value : Nat) :
    s.before value ++ s.after value = s.ranges :=
  takeWhile_append_dropWhile

lemma Range.less_iff {a b : Range} : a.less b = true ↔
    a.begin < b.begin ∨ (a.begin = b.begin ∧ a.past < b.past) := by
  rw [Range.less]
  split <;> simp <;> omega

namespace WellFormed

section

variable (h : s.WellFormed)

include h

lemma less_iff (hr : r ∈ s.ranges) : r.less ⟨value, value⟩ = true ↔ r.begin < value := by
  have hne := h.nonempty r hr
  rw [Range.less_iff]
  constructor
  · rintro (hlt | ⟨heq, hlt⟩)
    · exact hlt
    · simp only at heq hlt
      omega
  · exact Or.inl

lemma begin_lt (hr : r ∈ s.before value) : r.begin < value := by
  have hmem : r ∈ s.ranges := takeWhile_sublist _ |>.subset hr
  exact (h.less_iff hmem).mp (mem_takeWhile_imp (p := (Range.less · ⟨value, value⟩)) hr)

lemma le_begin (hr : r ∈ s.after value) : value ≤ r.begin := by
  have hmem : r ∈ s.ranges := dropWhile_sublist _ |>.subset hr
  have hfront : s.ranges.Pairwise fun a b =>
      b.less ⟨value, value⟩ = true → a.less ⟨value, value⟩ = true := by
    refine List.Pairwise.imp_of_mem (fun {a b} ha hb hab => ?_) h.apart
    have hne := h.nonempty a ha
    rw [h.less_iff ha, h.less_iff hb]
    omega
  rw [after, (Foundation.SortedCut.takeWhile_dropWhile_eq_filter hfront).2] at hr
  have hless := (mem_filter.mp hr).2
  rw [Bool.not_eq_true', ← Bool.not_eq_true, h.less_iff hmem] at hless
  omega

lemma apart_split (value : Nat) :
    (s.before value).Pairwise (fun r r' => r.past < r'.begin) ∧
      (s.after value).Pairwise (fun r r' => r.past < r'.begin) ∧
      ∀ r ∈ s.before value, ∀ r' ∈ s.after value, r.past < r'.begin := by
  have happart := h.apart
  rwa [← before_append_after s value, pairwise_append] at happart

/-- The ranges before the value but for the last end before the last begins. -/
lemma past_lt_of_ne_last {prev : Range}
    (hprev : (s.before value).getLast? = some prev) (hr : r ∈ s.before value) :
    r = prev ∨ r.past < prev.begin := by
  have hsplit := dropLast_append_getLast? prev hprev
  have happart := (h.apart_split value).1
  rw [← hsplit, pairwise_append] at happart
  rw [← hsplit, mem_append, mem_singleton] at hr
  rcases hr with hr | hr
  · exact .inr (happart.2.2 r hr prev (mem_singleton_self _))
  · exact .inl hr

/-- The ranges after the value but for the first begin after the first ends. -/
lemma past_lt_of_ne_first {next : Range} {rest : List Range}
    (hnext : s.after value = next :: rest) (hr : r ∈ s.after value) :
    r = next ∨ next.past < r.begin := by
  have happart := (h.apart_split value).2.1
  rw [hnext, pairwise_cons] at happart
  rw [hnext, mem_cons] at hr
  exact hr.imp_right (happart.1 r)

end

lemma mem_ranges_of_before (hr : r ∈ s.before value) : r ∈ s.ranges :=
  (takeWhile_sublist _).subset hr

lemma mem_ranges_of_after (hr : r ∈ s.after value) : r ∈ s.ranges :=
  (dropWhile_sublist _).subset hr

variable (h : s.WellFormed)

include h

/-- **Membership.** `Contains` finds exactly the numbers that the ranges stand for. -/
theorem contains_iff : s.contains value = true ↔ Covers s.ranges value := by
  rw [contains, Bool.or_eq_true, Option.any_eq_true, Option.any_eq_true]
  constructor
  · rintro (⟨it, hit, hbegin⟩ | ⟨prev, hprev, hbounds⟩)
    · have hmem := mem_ranges_of_after (mem_of_head? hit)
      have hne := h.nonempty it hmem
      rw [decide_eq_true_eq] at hbegin
      exact ⟨it, hmem, hbegin.le, by omega⟩
    · simp only [Bool.and_eq_true, decide_eq_true_eq] at hbounds
      exact ⟨prev, mem_ranges_of_before (mem_of_getLast? hprev), hbounds⟩
  · rintro ⟨r, hr, hle, hlt⟩
    rw [← before_append_after s value, mem_append] at hr
    rcases hr with hr | hr
    · -- only the last of the ranges before the value can reach it
      right
      obtain ⟨prev, hprev⟩ : ∃ prev, (s.before value).getLast? = some prev :=
        ⟨_, getLast?_eq_some_getLast (ne_nil_of_mem hr)⟩
      have hbegin := h.begin_lt (mem_of_getLast? hprev)
      rcases h.past_lt_of_ne_last hprev hr with rfl | hpast
      · exact ⟨r, hprev, by simp [hle, hlt]⟩
      · omega
    · -- only the first of the others can begin at it
      left
      cases hafter : s.after value with
      | nil => simp [hafter] at hr
      | cons next rest =>
        have hmem : next ∈ s.after value := hafter ▸ mem_cons_self ..
        have hbegin := h.le_begin hmem
        have hne := h.nonempty next (mem_ranges_of_after hmem)
        refine ⟨next, rfl, ?_⟩
        rcases h.past_lt_of_ne_first hafter hr with rfl | hpast
        · simp only [decide_eq_true_eq]
          omega
        · omega

/-! ## Adding a number -/

omit h in
/-- A range that fits between the others goes between them. -/
lemma insertRange_between {before after : List Range} (hr : r.begin < r.past)
    (hbefore : ∀ a ∈ before, a.begin < a.past ∧ a.past < r.begin)
    (hafter : ∀ a ∈ after, r.past < a.begin) :
    insertRange r (before ++ after) = some (before ++ r :: after) := by
  have hnot : r ∉ before ++ after := by
    rw [mem_append]
    rintro (hmem | hmem)
    · have hlt := hbefore r hmem
      omega
    · have hlt := hafter r hmem
      omega
  have hless : ∀ a ∈ before, a.less r = true := by
    intro a ha
    have hlt := hbefore a ha
    exact Range.less_iff.mpr (.inl (by omega))
  have hnotLess : ∀ a ∈ after, a.less r = false := by
    intro a ha
    have hlt := hafter a ha
    refine Bool.eq_false_of_not_eq_true fun hless => ?_
    rcases Range.less_iff.mp hless with hlt' | ⟨heq, -⟩ <;> omega
  rw [insertRange, if_neg hnot, takeWhile_append_of_pos hless, dropWhile_append_of_pos hless]
  cases after with
  | nil => simp
  | cons a after =>
    have ha := hnotLess a mem_cons_self
    rw [takeWhile_cons_of_neg (by simp [ha]), dropWhile_cons_of_neg (by simp [ha]), append_nil]

variable (hnot : s.contains value = false)

include hnot

/-- The ranges before the value end before it if it is not in the set. -/
lemma past_le (hr : r ∈ s.before value) : r.past ≤ value := by
  have hbegin := h.begin_lt hr
  by_contra hlt
  have hcovers : Covers s.ranges value := ⟨r, mem_ranges_of_before hr, hbegin.le, by omega⟩
  rw [← h.contains_iff, hnot] at hcovers
  cases hcovers

/-- The other ranges begin after it. -/
lemma lt_begin (hr : r ∈ s.after value) : value < r.begin := by
  have hbegin := h.le_begin hr
  have hne := h.nonempty r (mem_ranges_of_after hr)
  by_contra hlt
  have hcovers : Covers s.ranges value := ⟨r, mem_ranges_of_after hr, by omega, by omega⟩
  rw [← h.contains_iff, hnot] at hcovers
  cases hcovers

variable {kept : List Range}

lemma mergePrev_spec {begin : Nat} (hmerge : mergePrev value (s.before value) = (kept, begin)) :
    kept.Sublist (s.before value) ∧ (∀ r ∈ kept, r.past < begin) ∧ begin ≤ value ∧
      ∀ v, Covers (s.before value) v ∨ v = value ↔ Covers kept v ∨ (begin ≤ v ∧ v ≤ value) := by
  rw [mergePrev] at hmerge
  cases hprev : (s.before value).getLast? with
  | none =>
    have hbefore : s.before value = [] := getLast?_eq_none_iff.mp hprev
    simp only [hprev, Prod.mk.injEq] at hmerge
    obtain ⟨rfl, rfl⟩ := hmerge
    refine ⟨refl _, by simp [hbefore], le_rfl, fun v => ?_⟩
    simp only [hbefore, Covers, not_mem_nil, false_and, exists_false, false_or]
    omega
  | some prev =>
    have hsplit := dropLast_append_getLast? prev hprev
    have hmem := mem_of_getLast? hprev
    have hbegin := h.begin_lt hmem
    simp only [hprev] at hmerge
    split at hmerge
    case isTrue hpast =>
      obtain ⟨rfl, rfl⟩ := Prod.mk.inj hmerge
      refine ⟨dropLast_sublist _, fun r hr => ?_, hbegin.le, fun v => ?_⟩
      · have happart := (h.apart_split value).1
        rw [← hsplit, pairwise_append] at happart
        exact happart.2.2 r hr prev (mem_singleton_self _)
      · have hcovers : Covers (s.before value) v ↔
            Covers (s.before value).dropLast v ∨ (prev.begin ≤ v ∧ v < value) := by
          conv_lhs => rw [← hsplit]
          simp [Covers, or_and_right, exists_or, hpast]
        rw [hcovers]
        grind
    case isFalse hpast =>
      obtain ⟨rfl, rfl⟩ := Prod.mk.inj hmerge
      refine ⟨refl _, fun r hr => ?_, le_rfl, fun v => by grind⟩
      have hle := h.past_le hnot hr
      rcases h.past_lt_of_ne_last hprev hr with rfl | hlt <;> omega

lemma mergeNext_spec (hvalue : value < uint64Max) {past : Nat}
    (hmerge : mergeNext value (s.after value) = (past, kept)) :
    kept.Sublist (s.after value) ∧ (∀ r ∈ kept, past < r.begin) ∧ value < past ∧
      past ≤ uint64Max ∧
      ∀ v, Covers (s.after value) v ∨ v = value ↔ Covers kept v ∨ (value ≤ v ∧ v < past) := by
  have hnextValue : nextUInt64 value = value + 1 := by
    rw [nextUInt64]
    rw [uint64Max] at hvalue
    omega
  cases hafter : s.after value with
  | nil =>
    simp only [hafter, mergeNext, hnextValue, Prod.mk.injEq] at hmerge
    obtain ⟨rfl, rfl⟩ := hmerge
    refine ⟨refl _, by simp, by omega, by omega, fun v => ?_⟩
    simp only [Covers, not_mem_nil, false_and, exists_false, false_or]
    omega
  | cons next rest =>
    have hmem : next ∈ s.after value := hafter ▸ mem_cons_self ..
    have hbegin := h.lt_begin hnot hmem
    have hne := h.nonempty next (mem_ranges_of_after hmem)
    have hbounded := h.bounded next (mem_ranges_of_after hmem)
    have happart := (h.apart_split value).2.1
    rw [hafter, pairwise_cons] at happart
    rw [hafter, mergeNext, hnextValue] at hmerge
    split at hmerge
    case isTrue heq =>
      obtain ⟨rfl, rfl⟩ := Prod.mk.inj hmerge
      refine ⟨sublist_cons_self _ _, happart.1, by omega, hbounded, fun v => ?_⟩
      have hcovers : Covers (next :: rest) v ↔
          Covers rest v ∨ (value + 1 ≤ v ∧ v < next.past) := by
        simp [Covers, heq, or_comm]
      grind
    case isFalse heq =>
      obtain ⟨rfl, rfl⟩ := Prod.mk.inj hmerge
      refine ⟨refl _, fun r hr => ?_, by omega, by omega, fun v => by grind⟩
      rcases mem_cons.mp hr with rfl | hr
      · omega
      · have hlt := happart.1 r hr
        omega

/-- **Adding.** A number that is not in the set, and not the largest one, is put in. -/
theorem add (hvalue : value < uint64Max) :
    ∃ s', s.add value = .added s' ∧ s'.WellFormed ∧
      ∀ v, Covers s'.ranges v ↔ Covers s.ranges v ∨ v = value := by
  -- the new range takes in its neighbours on both sides
  obtain ⟨⟨kept, begin⟩, hp⟩ : ∃ p, mergePrev value (s.before value) = p := ⟨_, rfl⟩
  obtain ⟨⟨past, kept'⟩, hq⟩ : ∃ q, mergeNext value (s.after value) = q := ⟨_, rfl⟩
  obtain ⟨hsubPrev, hprev, hbegin, hcoversPrev⟩ := h.mergePrev_spec hnot hp
  obtain ⟨hsubNext, hnext, hpast, hbounded, hcoversNext⟩ := h.mergeNext_spec hnot hvalue hq
  obtain ⟨happartPrev, happartNext, -⟩ := h.apart_split value
  have hnonempty : ∀ r ∈ kept, r.begin < r.past := fun r hr =>
    h.nonempty r (mem_ranges_of_before (hsubPrev.subset hr))
  refine ⟨⟨kept ++ ⟨begin, past⟩ :: kept'⟩, ?_, ⟨?_, ?_, ?_⟩, fun v => ?_⟩
  · rw [CRangesSet.add, if_neg (by simp [hnot])]
    simp only [hp, hq]
    rw [insertRange_between (by simp only; omega) (fun r hr => ⟨hnonempty r hr, hprev r hr⟩) hnext]
  · rw [pairwise_append, pairwise_cons]
    refine ⟨happartPrev.sublist hsubPrev, ⟨hnext, happartNext.sublist hsubNext⟩, ?_⟩
    intro r hr r' hr'
    have hlt := hprev r hr
    rcases mem_cons.mp hr' with rfl | hr'
    · exact hlt
    · have hlt' := hnext r' hr'
      omega
  · intro r hr
    rcases mem_append.mp hr with hr | hr
    · exact hnonempty r hr
    rcases mem_cons.mp hr with rfl | hr
    · simp only
      omega
    · exact h.nonempty r (mem_ranges_of_after (hsubNext.subset hr))
  · intro r hr
    rcases mem_append.mp hr with hr | hr
    · exact h.bounded r (mem_ranges_of_before (hsubPrev.subset hr))
    rcases mem_cons.mp hr with rfl | hr
    · exact hbounded
    · exact h.bounded r (mem_ranges_of_after (hsubNext.subset hr))
  · have hcovers : Covers s.ranges v ↔ Covers (s.before value) v ∨ Covers (s.after value) v := by
      conv_lhs => rw [← before_append_after s value]
      simp [Covers, or_and_right, exists_or]
    have hcovers' : Covers (kept ++ ⟨begin, past⟩ :: kept') v ↔
        Covers kept v ∨ (begin ≤ v ∧ v < past) ∨ Covers kept' v := by
      simp [Covers, or_and_right, exists_or]
    grind

end WellFormed

end CRangesSet

end HootChain.Util

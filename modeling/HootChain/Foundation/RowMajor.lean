import Mathlib.Data.List.Basic
import Mathlib.Data.List.Perm.Basic
import Mathlib.Data.Multiset.Bind
import Mathlib.Tactic

/-!
# Columns Read Row by Row

Columns of different lengths are read row by row: first the heads of all columns, then the
second entries, and so on until a row is empty.
-/

namespace HootChain.Foundation

open List Nat

variable {α : Type}

/-- What is read of the entries determines them. -/
lemma eq_of_map_eq {β : Type} {l l' : List α} {f : α → β}
    (hinj : ∀ a ∈ l, ∀ b ∈ l', f a = f b → a = b) (h : l.map f = l'.map f) : l = l' := by
  refine ext_getElem (by simpa using congrArg length h) fun i hi hi' => ?_
  refine hinj _ (getElem_mem hi) _ (getElem_mem hi') ?_
  simpa [hi, hi'] using congrArg (·[i]?) h

section

variable (n : Nat) (cols : Nat → List α)

/-- The entries of a row. -/
def row (c : Nat) : List α := (range n).filterMap fun i => (cols i)[c]?

/-- The rows from one on, up to a number of rows. -/
def rowsFrom (c : Nat) : Nat → List α
  | 0 => []
  | rows + 1 => row n cols c ++ rowsFrom (c + 1) rows

/-- The longest column is at most as long. -/
def columnsLength : Nat := ((range n).map fun i => (cols i).length).sum

/-- All entries, row by row. -/
def rowMajor : List α := rowsFrom n cols 0 (columnsLength n cols)

end

section Rows

variable {n : Nat} {cols : Nat → List α}

lemma length_le_columnsLength {i : Nat} (hi : i < n) : (cols i).length ≤ columnsLength n cols :=
  single_le_sum (fun _ _ => zero_le _) _ (mem_map.mpr ⟨i, mem_range.mpr hi, rfl⟩)

variable {c bound : Nat} {a : α} {β : Type}

lemma mem_row : a ∈ row n cols c ↔ ∃ i < n, (cols i)[c]? = some a := by
  simp [row]

lemma row_eq_nil_of_le {d : Nat} (h : row n cols c = []) (hcd : c ≤ d) : row n cols d = [] := by
  rw [row, filterMap_eq_nil_iff] at h ⊢
  intro i hi
  have hlength := getElem?_eq_none_iff.mp (h i hi)
  exact getElem?_eq_none_iff.mpr (hlength.trans hcd)

lemma rowsFrom_eq_nil {rows : Nat} (h : row n cols c = []) : rowsFrom n cols c rows = [] := by
  induction rows generalizing c with
  | zero => rfl
  | succ rows ih => rw [rowsFrom, h, ih (row_eq_nil_of_le h (le_succ c)), nil_append]

lemma rowsFrom_eq_flatMap (c rows : Nat) :
    rowsFrom n cols c rows = (range' c rows).flatMap (row n cols) := by
  induction rows generalizing c with
  | zero => rfl
  | succ rows ih => rw [rowsFrom, range'_succ, flatMap_cons, ih]

lemma rowMajor_eq_flatMap :
    rowMajor n cols = (range (columnsLength n cols)).flatMap (row n cols) := by
  rw [rowMajor, rowsFrom_eq_flatMap, range_eq_range']

lemma mem_rowMajor : a ∈ rowMajor n cols ↔ ∃ i < n, a ∈ cols i := by
  rw [rowMajor_eq_flatMap, mem_flatMap]
  constructor
  · rintro ⟨c, -, ha⟩
    obtain ⟨i, hi, hget⟩ := mem_row.mp ha
    exact ⟨i, hi, mem_of_getElem? hget⟩
  · rintro ⟨i, hi, ha⟩
    obtain ⟨c, hc, hget⟩ := mem_iff_getElem.mp ha
    refine ⟨c, mem_range.mpr (hc.trans_le (length_le_columnsLength hi)), ?_⟩
    exact mem_row.mpr ⟨i, hi, by rw [getElem?_eq_getElem hc, hget]⟩

lemma flatMap_toList_getElem? {l : List α} (h : l.length ≤ bound) :
    ((range bound).flatMap fun c => l[c]?.toList) = l := by
  induction l generalizing bound with
  | nil => simp
  | cons a l ih =>
    obtain ⟨bound, rfl⟩ := exists_eq_succ_of_ne_zero (by simp at h; omega : bound ≠ 0)
    rw [range_succ_eq_map, flatMap_cons, flatMap_map]
    simpa using ih (by simpa using h)

/-- The entries are those of the columns. -/
lemma rowMajor_perm : (rowMajor n cols).Perm ((range n).flatMap cols) := by
  have hcols : (range n).flatMap cols =
      (range n).flatMap fun i =>
        (range (columnsLength n cols)).flatMap fun c => (cols i)[c]?.toList := by
    refine flatMap_congr fun i hi => ?_
    exact (flatMap_toList_getElem? (length_le_columnsLength (mem_range.mp hi))).symm
  have hrow : ∀ c, row n cols c = (range n).flatMap fun i => (cols i)[c]?.toList := by
    intro c
    rw [row, filterMap_eq_flatMap_toList]
  rw [rowMajor_eq_flatMap, hcols, ← Multiset.coe_eq_coe]
  simp only [hrow, ← Multiset.coe_bind]
  exact Multiset.bind_bind _ _

lemma row_map (f : α → β) (c : Nat) :
    row n (fun i => (cols i).map f) c = (row n cols c).map f := by
  simp [row, map_filterMap]

lemma rowMajor_map (f : α → β) :
    rowMajor n (fun i => (cols i).map f) = (rowMajor n cols).map f := by
  have hlength : columnsLength n (fun i => (cols i).map f) = columnsLength n cols := by
    simp [columnsLength]
  rw [rowMajor_eq_flatMap, rowMajor_eq_flatMap, hlength, map_flatMap]
  exact flatMap_congr fun c _ => row_map f c

lemma rowMajor_eq_of_nil {n' : Nat} (hle : n ≤ n') (hnil : ∀ i, n ≤ i → i < n' → cols i = []) :
    rowMajor n' cols = rowMajor n cols := by
  induction n', hle using le_induction with
  | base => rfl
  | succ n' hle ih =>
    have hlast : cols n' = [] := hnil n' hle (lt_succ_self n')
    have hlength : columnsLength (n' + 1) cols = columnsLength n' cols := by
      simp [columnsLength, range_succ, hlast]
    have hrow : row (n' + 1) cols = row n' cols := by
      funext c
      simp [row, range_succ, hlast]
    rw [← ih fun i hi hlt => hnil i hi (hlt.trans (lt_succ_self n')), rowMajor_eq_flatMap,
      rowMajor_eq_flatMap, hlength, hrow]

lemma pairwise_range_iff {R : Nat → Nat → Prop} :
    (range bound).Pairwise R ↔ ∀ i j, i < j → j < bound → R i j := by
  simp only [pairwise_iff_getElem, length_range, getElem_range]
  constructor
  · exact fun h i j hij hj => h i j (hij.trans hj) hj hij
  · exact fun h i j _ hj hij => h i j hij hj

/-- **Orders.** An order of the entries is an order of the columns, row by row. -/
theorem pairwise_rowMajor_iff {R : α → α → Prop} :
    (rowMajor n cols).Pairwise R ↔
      ∀ i < n, ∀ j < n, ∀ (c d : Nat) (x y : α), (cols i)[c]? = some x → (cols j)[d]? = some y →
        (c < d ∨ c = d ∧ i < j) → R x y := by
  rw [rowMajor_eq_flatMap, pairwise_flatMap, pairwise_range_iff]
  have hbound : ∀ {j d : Nat} {y : α}, j < n → (cols j)[d]? = some y → d < columnsLength n cols := by
    intro j d y hj hget
    exact (List.getElem?_eq_some_iff.mp hget).1.trans_le (length_le_columnsLength hj)
  constructor
  · rintro ⟨hrow, hrows⟩ i hi j hj c d x y hx hy (hlt | ⟨rfl, hlt⟩)
    · exact hrows c d hlt (hbound hj hy) x (mem_row.mpr ⟨i, hi, hx⟩) y (mem_row.mpr ⟨j, hj, hy⟩)
    · have hpairs := hrow c (mem_range.mpr (hbound hj hy))
      rw [row, pairwise_filterMap, pairwise_range_iff] at hpairs
      exact hpairs i j hlt hj x hx y hy
  · intro h
    refine ⟨fun c _ => ?_, fun c d hlt _ x hx y hy => ?_⟩
    · rw [row, pairwise_filterMap, pairwise_range_iff]
      intro i j hlt hj x hx y hy
      exact h i (hlt.trans hj) j hj c c x y hx hy (.inr ⟨rfl, hlt⟩)
    · obtain ⟨i, hi, hx⟩ := mem_row.mp hx
      obtain ⟨j, hj, hy⟩ := mem_row.mp hy
      exact h i hi j hj c d x y hx hy (.inl hlt)

end Rows

/-! ## Scanning -/

/-- Reads rows until one is empty or there are enough entries; a row that cannot be read ends
everything. Each pass takes an entry, so the fuel need not be more than what is wanted. -/
def scanRows {β : Type} (readRow : Nat → Option (List β)) : Nat → Nat → Nat → Option (List β)
  | 0, _, _ => some []
  | fuel + 1, cycle, wanted =>
    if wanted = 0 then some []
    else
      match readRow cycle with
      | none => none
      | some [] => some []
      | some (a :: entries) =>
        let copied := (a :: entries).take wanted
        (scanRows readRow fuel (cycle + 1) (wanted - copied.length)).map (copied ++ ·)

/-- **Scans.** A scan reads the first entries. -/
theorem scanRows_eq {n : Nat} {cols : Nat → List α} {readRow : Nat → Option (List α)}
    (hread : ∀ c, readRow c = some (row n cols c)) (wanted : Nat) :
    scanRows readRow wanted 0 wanted = some ((rowMajor n cols).take wanted) := by
  have hscan : ∀ fuel c wanted rows, wanted ≤ fuel → (∀ d, c + rows ≤ d → row n cols d = []) →
      scanRows readRow fuel c wanted = some ((rowsFrom n cols c rows).take wanted) := by
    intro fuel
    induction fuel with
    | zero =>
      intro c wanted rows hfuel _
      obtain rfl := le_zero.mp hfuel
      rfl
    | succ fuel ih =>
      intro c wanted rows hfuel hempty
      rw [scanRows]
      split
      case isTrue hzero => rw [hzero, take_zero]
      case isFalse hwanted =>
      rw [hread]
      cases hrow : row n cols c with
      | nil => rw [rowsFrom_eq_nil hrow, take_nil]
      | cons a entries =>
        -- there is such a row, so it is one of those to be read
        obtain ⟨rows, rfl⟩ := exists_eq_succ_of_ne_zero (n := rows) fun hzero => by
          rw [hempty c (by omega)] at hrow
          cases hrow
        dsimp only
        rw [ih (c + 1) _ rows (by simp; omega) fun d hd => hempty d (by omega), rowsFrom, hrow,
          take_append, length_take, Option.map_some]
        congr 3
        omega
  refine hscan wanted 0 wanted _ le_rfl fun d hd => ?_
  rw [row, filterMap_eq_nil_iff]
  intro i hi
  exact getElem?_eq_none_iff.mpr ((length_le_columnsLength (mem_range.mp hi)).trans (by omega))

end HootChain.Foundation

import HootChain.Foundation.EventRuns
import HootChain.Foundation.SortedCut
import Mathlib.Data.List.DropRight
import Mathlib.Data.List.TakeWhile
import Mathlib.Tactic

/-!
# Ordered Stores with Transactions

A store keeps values under ordered keys. A transaction collects writes and erasures on top
of it, and is read through: what it has not changed is read from below. Its iterator merges
the keys it has written with those of the iterator below, and skips the keys below that are
erased or overwritten.
-/

namespace HootChain.Foundation

open List Function Std.TreeMap Std.LawfulEqCmp

variable {κ α : Type} {cmp : κ → κ → Ordering}

/-! ## Iterations -/

/-- The entries are those that can be read from a key on, in the order of the keys. -/
structure ListsFrom (cmp : κ → κ → Ordering) (view : κ → Option α) (key : κ)
    (entries : List (κ × α)) : Prop where
  sorted : entries.Pairwise fun a b => cmp a.1 b.1 = .lt
  mem_iff : ∀ k v, (k, v) ∈ entries ↔ view k = some v ∧ cmp k key ≠ .lt

section Orders

variable [Std.TransCmp cmp] {a b : κ} {entries l : List (κ × α)} {p : κ → Bool}

lemma ne_of_cmp_lt (h : cmp a b = .lt) : a ≠ b := by
  rintro rfl
  have hself : cmp a a = .eq := Std.ReflCmp.compare_self
  rw [hself] at h
  cases h

lemma nodup_of_pairwise_lt (h : l.Pairwise fun a b => cmp a.1 b.1 = .lt) :
    (l.map Prod.fst).Nodup := by
  rw [List.Nodup, pairwise_map]
  exact h.imp fun hlt => ne_of_cmp_lt hlt

lemma eq_of_pairwise_lt {l' : List (κ × α)} (h : l.Pairwise fun a b => cmp a.1 b.1 = .lt)
    (h' : l'.Pairwise fun a b => cmp a.1 b.1 = .lt) (hmem : ∀ e, e ∈ l ↔ e ∈ l') : l = l' := by
  have hperm : l.Perm l' := (perm_ext_iff_of_nodup (nodup_of_pairwise_lt h).of_map
    (nodup_of_pairwise_lt h').of_map).mpr hmem
  refine hperm.eq_of_pairwise (fun a b _ _ hab hba => ?_) h h'
  exact absurd hba (Std.OrientedCmp.not_lt_of_lt hab)

/-- **Intervals.** The keys with a property that is kept towards the first key are visited
before the others. -/
theorem ListsFrom.eq_append {view : κ → Option α} {key : κ} {stretch : List (κ × α)}
    (h : ListsFrom cmp view key entries)
    (hstretch : stretch.Pairwise fun a b => cmp a.1 b.1 = .lt)
    (hmem : ∀ k v, (k, v) ∈ stretch ↔ (view k = some v ∧ cmp k key ≠ .lt) ∧ p k = true)
    (hdown : ∀ k k', cmp k key ≠ .lt → cmp k k' = .lt → p k' = true → p k = true) :
    entries = stretch ++ entries.filter fun e => !p e.1 := by
  have hfilter : entries.filter (fun e => p e.1) = stretch := by
    refine eq_of_pairwise_lt (h.sorted.filter _) hstretch fun e => ?_
    rw [mem_filter, h.mem_iff, hmem]
  have hkept : entries.Pairwise fun a b => p b.1 = true → p a.1 = true := by
    refine h.sorted.imp_of_mem fun {a b} ha _ hlt hp => ?_
    exact hdown a.1 b.1 ((h.mem_iff a.1 a.2).mp ha).2 hlt hp
  have hcut := SortedCut.takeWhile_dropWhile_eq_filter hkept
  rw [← hfilter, ← hcut.1, ← hcut.2, takeWhile_append_dropWhile]

variable [Std.LawfulEqCmp cmp]

lemma cmp_lt_of_ne (hne : a ≠ b) (h : cmp a b ≠ .lt) : cmp b a = .lt := by
  cases hcmp : cmp a b with
  | lt => exact absurd hcmp h
  | eq => exact absurd (eq_of_compare hcmp) hne
  | gt => exact Std.OrientedCmp.lt_of_gt hcmp

/-- The iterator of a store, from a key on. -/
def storeFrom (store : Std.TreeMap κ α cmp) (key : κ) : List (κ × α) :=
  store.toList.dropWhile fun e => cmp e.1 key = .lt

lemma listsFrom_storeFrom (store : Std.TreeMap κ α cmp) (key : κ) :
    ListsFrom cmp (fun k => store[k]?) key (storeFrom store key) := by
  have hsorted := ordered_keys_toList (t := store)
  have hfront : store.toList.Pairwise fun a b =>
      decide (cmp b.1 key = .lt) = true → decide (cmp a.1 key = .lt) = true :=
    hsorted.imp fun hab hb => by simpa using Std.TransCmp.lt_trans hab (of_decide_eq_true hb)
  rw [storeFrom, (SortedCut.takeWhile_dropWhile_eq_filter hfront).2]
  refine ⟨hsorted.filter _, fun k v => ?_⟩
  simp

end Orders

/-! ## Transactions -/

/-- Changes on top of a store: the values written and the keys erased. -/
structure Transaction (κ α : Type) (cmp : κ → κ → Ordering) where
  writes : Std.TreeMap κ α cmp
  deletes : Std.TreeSet κ cmp
  disjoint : ∀ k, k ∈ writes → k ∉ deletes

namespace Transaction

variable [Std.TransCmp cmp] [Std.LawfulEqCmp cmp]

/-- No changes. -/
def clean : Transaction κ α cmp where
  writes := ∅
  deletes := ∅
  disjoint _ h := absurd h not_mem_emptyc

section

variable (tx : Transaction κ α cmp)

/-- A value is written. -/
def write (key : κ) (value : α) : Transaction κ α cmp where
  writes := tx.writes.insert key value
  deletes := tx.deletes.erase key
  disjoint k h := by
    rw [mem_insert] at h
    rw [Std.TreeSet.mem_erase]
    rintro ⟨hne, hdeleted⟩
    rcases h with heq | hwritten
    · exact hne heq
    · exact tx.disjoint k hwritten hdeleted

def erase (key : κ) : Transaction κ α cmp where
  writes := tx.writes.erase key
  deletes := tx.deletes.insert key
  disjoint k h := by
    rw [mem_erase] at h
    rw [Std.TreeSet.mem_insert]
    rintro (heq | hdeleted)
    · exact h.1 heq
    · exact tx.disjoint k h.2 hdeleted

/-- What is read through the transaction, with a reader for what is below. -/
def read (parent : κ → Option α) (key : κ) : Option α :=
  if key ∈ tx.deletes then none
  else
    match tx.writes[key]? with
    | some value => some value
    | none => parent key

/-- Whether there is a value, with a test for what is below. -/
def existsKey (parent : κ → Bool) (key : κ) : Bool :=
  if key ∈ tx.deletes then false
  else if key ∈ tx.writes then true
  else parent key

end

variable {tx target : Transaction κ α cmp} {parent : κ → Option α}

omit [Std.LawfulEqCmp cmp] in
@[simp] lemma read_clean : (clean : Transaction κ α cmp).read parent = parent := by
  funext key
  simp [read, clean]

omit [Std.LawfulEqCmp cmp] in
lemma existsKey_eq (key : κ) :
    tx.existsKey (fun k => (parent k).isSome) key = (tx.read parent key).isSome := by
  simp only [existsKey, read, mem_iff_isSome_getElem?]
  cases tx.writes[key]? <;> split <;> simp

variable [DecidableEq κ]

lemma read_write (key : κ) (value : α) :
    (tx.write key value).read parent = update (tx.read parent) key (some value) := by
  funext k
  by_cases hk : k = key
  · subst hk
    simp [read, write]
  · have hne : cmp key k ≠ .eq := fun heq => hk (compare_eq_iff_eq.mp heq).symm
    simp [read, write, hk, hne, Std.TreeMap.getElem?_insert]

lemma read_erase (key : κ) : (tx.erase key).read parent = update (tx.read parent) key none := by
  funext k
  by_cases hk : k = key
  · subst hk
    simp [read, erase]
  · have hne : cmp key k ≠ .eq := fun heq => hk (compare_eq_iff_eq.mp heq).symm
    simp [read, erase, hk, hne, getElem?_erase]

/-- The changes are handed on: the erasures first, then the writes. -/
def handOn {σ : Type} (tx : Transaction κ α cmp) (erase : σ → κ → σ) (write : σ → κ → α → σ)
    (target : σ) : σ :=
  tx.writes.toList.foldl (fun s e => write s e.1 e.2) (tx.deletes.toList.foldl erase target)

/-- Handing the changes on makes below what was read through the transaction. -/
lemma get_handOn {σ : Type} {erase : σ → κ → σ} {write : σ → κ → α → σ}
    {get : σ → κ → Option α} (herase : ∀ s k, get (erase s k) = update (get s) k none)
    (hwrite : ∀ s k v, get (write s k v) = update (get s) k (some v)) (target : σ) :
    get (tx.handOn erase write target) = tx.read (get target) := by
  have heraseAll : ∀ (keys : List κ) s, get (keys.foldl erase s) = eraseAll keys (get s) :=
    fun keys s => (foldl_hom get fun s k => (herase s k).symm).symm
  have hwriteAll : ∀ (records : List (κ × α)) s,
      get (records.foldl (fun s e => write s e.1 e.2) s) = writeAll records (get s) :=
    fun records s => (foldl_hom get fun s e => (hwrite s e.1 e.2).symm).symm
  have hnodup : (tx.writes.toList.map Prod.fst).Nodup :=
    nodup_of_pairwise_lt ordered_keys_toList
  rw [handOn, hwriteAll, heraseAll]
  funext key
  refine Option.ext fun value => ?_
  rw [writeAll_eq_some_iff hnodup, eraseAll_eq_some_iff,
    mem_toList_iff_getElem?_eq_some, read]
  by_cases hdeleted : key ∈ tx.deletes
  · -- an erased key is not written as well
    have hunwritten : tx.writes[key]? = none :=
      getElem?_eq_none fun hwritten => tx.disjoint key hwritten hdeleted
    simp [hdeleted, hunwritten]
  · rw [if_neg hdeleted]
    have hkeys : key ∈ tx.writes.toList.map Prod.fst ↔ (tx.writes[key]?).isSome = true := by
      rw [map_fst_toList_eq_keys, Std.TreeMap.mem_keys, mem_iff_isSome_getElem?]
    rw [hkeys]
    cases hwritten : tx.writes[key]? with
    | none => simp [hdeleted]
    | some written => simp

/-- Commits into the transaction below. -/
def commit (tx target : Transaction κ α cmp) : Transaction κ α cmp :=
  tx.handOn Transaction.erase Transaction.write target

/-- Commits into the store below. -/
def commitStore (tx : Transaction κ α cmp) (target : Std.TreeMap κ α cmp) : Std.TreeMap κ α cmp :=
  tx.handOn Std.TreeMap.erase Std.TreeMap.insert target

/-- Committing changes nothing that is read through the transaction. -/
lemma read_commit : (tx.commit target).read parent = tx.read (target.read parent) :=
  @get_handOn _ _ _ _ _ tx _ _ _ _ (fun t => t.read parent) (fun _ k => read_erase k)
    (fun _ k v => read_write k v) target

lemma get_commitStore (store : Std.TreeMap κ α cmp) :
    (fun k => (tx.commitStore store)[k]?) = tx.read fun k => store[k]? := by
  refine @get_handOn _ _ _ _ _ tx _ _ _ _ (fun (t : Std.TreeMap κ α cmp) k => t[k]?) ?_ ?_ store
  · intro s key
    funext k
    simp [Std.TreeMap.getElem?_erase, update_apply, @eq_comm _ k]
  · intro s key value
    funext k
    simp [Std.TreeMap.getElem?_insert, update_apply, @eq_comm _ k]

end Transaction

/-! ## Iterators over transactions -/

namespace Transaction

section Skipping

variable (tx : Transaction κ α cmp)

/-- The key is erased or written. -/
def changes (key : κ) : Bool := tx.deletes.contains key || tx.writes.contains key

/-- Skips the entries below that are erased or overwritten. -/
def skip (below : List (κ × α)) : List (κ × α) := below.dropWhile fun e => tx.changes e.1

variable {tx}

lemma length_skip_le (below : List (κ × α)) : (tx.skip below).length ≤ below.length :=
  (dropWhile_sublist _).length_le

lemma skip_skip (below : List (κ × α)) : tx.skip (tx.skip below) = tx.skip below :=
  dropWhile_idempotent _ _

lemma changes_of_skip_eq_self {e : κ × α} {below : List (κ × α)}
    (h : tx.skip (e :: below) = e :: below) : tx.changes e.1 = false := by
  by_contra hchanges
  rw [skip, dropWhile_cons_of_pos (by simpa using hchanges)] at h
  have hlength := @length_skip_le _ _ _ tx below
  rw [skip, h, length_cons] at hlength
  omega

lemma mem_skip_iff {e : κ × α} (he : tx.changes e.1 = false) (below : List (κ × α)) :
    e ∈ tx.skip below ↔ e ∈ below := by
  refine ⟨fun h => (dropWhile_sublist _).subset h, fun h => ?_⟩
  rw [← takeWhile_append_dropWhile (p := fun e => tx.changes e.1) (l := below)] at h
  rcases mem_append.mp h with h | h
  · have hchanges := mem_takeWhile_imp h
    rw [he] at hchanges
    cases hchanges
  · exact h

end Skipping

/-- The entries that the iterator visits: `own` are those of the transaction that are left,
`below` those of the iterator below, at one that is not to be skipped. -/
def merge (tx : Transaction κ α cmp) : List (κ × α) → List (κ × α) → List (κ × α)
  | [], [] => []
  | o :: own, [] => o :: merge tx own []
  | [], b :: below => b :: merge tx [] (tx.skip below)
  | o :: own, b :: below =>
    if cmp o.1 b.1 = .lt then o :: merge tx own (b :: below)
    else b :: merge tx (o :: own) (tx.skip below)
termination_by own below => own.length + below.length
decreasing_by
  · simp
  · have hskip := @length_skip_le _ _ _ tx below
    simp only [length_cons, length_nil]
    omega
  · simp
  · have hskip := @length_skip_le _ _ _ tx below
    simp only [length_cons]
    omega

/-- The iterator of the transaction from a key on, over that of what is below. -/
def iterate (tx : Transaction κ α cmp) (below : List (κ × α)) (key : κ) : List (κ × α) :=
  tx.merge (tx.writes.toList.dropWhile fun e => cmp e.1 key = .lt) (tx.skip below)

variable {tx : Transaction κ α cmp} {own below : List (κ × α)}

lemma mem_merge_iff (hbelow : tx.skip below = below) (e : κ × α) :
    e ∈ tx.merge own below ↔ e ∈ own ∨ (e ∈ below ∧ tx.changes e.1 = false) := by
  induction own, below using merge.induct tx with
  | case1 => simp [merge]
  | case2 o own ih =>
    rw [merge, mem_cons, ih rfl]
    simp
  | case3 b below ih =>
    have hb := changes_of_skip_eq_self hbelow
    rw [merge, mem_cons, ih (skip_skip below)]
    by_cases he : tx.changes e.1 = false
    · simp [he, mem_skip_iff he]
    · have hne : e ≠ b := fun heq => he (heq ▸ hb)
      simp [he, hne]
  | case4 o own b below hlt ih =>
    rw [merge, if_pos hlt, mem_cons, ih hbelow, mem_cons (l := own), or_assoc]
  | case5 o own b below hlt ih =>
    have hb := changes_of_skip_eq_self hbelow
    rw [merge, if_neg hlt, mem_cons, ih (skip_skip below), mem_cons (a := e) (b := b)]
    by_cases he : tx.changes e.1 = false
    · simp only [he, mem_skip_iff he, and_true]
      tauto
    · have hne : e ≠ b := fun heq => he (heq ▸ hb)
      simp [he, hne]

variable [Std.TransCmp cmp] [Std.LawfulEqCmp cmp]

lemma pairwise_merge (hbelow : tx.skip below = below) (hwrites : ∀ o ∈ own, tx.changes o.1 = true)
    (hown : own.Pairwise fun a b => cmp a.1 b.1 = .lt)
    (hsorted : below.Pairwise fun a b => cmp a.1 b.1 = .lt) :
    (tx.merge own below).Pairwise fun a b => cmp a.1 b.1 = .lt := by
  have hskip : ∀ {below : List (κ × α)}, (below.Pairwise fun a b => cmp a.1 b.1 = .lt) →
      (tx.skip below).Pairwise fun a b => cmp a.1 b.1 = .lt := fun h =>
    h.sublist (dropWhile_sublist _)
  induction own, below using merge.induct tx with
  | case1 => simp [merge]
  | case2 o own ih =>
    obtain ⟨hfirst, hrest⟩ := pairwise_cons.mp hown
    obtain ⟨-, hwrites⟩ := forall_mem_cons.mp hwrites
    rw [merge, pairwise_cons]
    refine ⟨fun e he => ?_, ih rfl hwrites hrest hsorted⟩
    rcases (mem_merge_iff rfl e).mp he with he | ⟨he, -⟩
    · exact hfirst e he
    · cases he
  | case3 b below ih =>
    obtain ⟨hfirst, hrest⟩ := pairwise_cons.mp hsorted
    rw [merge, pairwise_cons]
    refine ⟨fun e he => ?_, ih (skip_skip below) hwrites hown (hskip hrest)⟩
    rcases (mem_merge_iff (skip_skip below) e).mp he with he | ⟨he, hchanges⟩
    · cases he
    · exact hfirst e ((mem_skip_iff hchanges below).mp he)
  | case4 o own b below hlt ih =>
    obtain ⟨hfirst, hrest⟩ := pairwise_cons.mp hown
    obtain ⟨-, hwrites⟩ := forall_mem_cons.mp hwrites
    rw [merge, if_pos hlt, pairwise_cons]
    refine ⟨fun e he => ?_, ih hbelow hwrites hrest hsorted⟩
    rcases (mem_merge_iff hbelow e).mp he with he | ⟨he, -⟩
    · exact hfirst e he
    · rcases mem_cons.mp he with rfl | he
      · exact hlt
      · exact Std.TransCmp.lt_trans hlt ((pairwise_cons.mp hsorted).1 e he)
  | case5 o own b below hlt ih =>
    obtain ⟨hfirst, hrest⟩ := pairwise_cons.mp hsorted
    rw [merge, if_neg hlt, pairwise_cons]
    refine ⟨fun e he => ?_, ih (skip_skip below) hwrites hown (hskip hrest)⟩
    -- the entry below has another key than those of the transaction
    have hne : o.1 ≠ b.1 := by
      intro heq
      have hb := changes_of_skip_eq_self hbelow
      rw [← heq, hwrites o mem_cons_self] at hb
      cases hb
    have hbo : cmp b.1 o.1 = .lt := cmp_lt_of_ne hne hlt
    rcases (mem_merge_iff (skip_skip below) e).mp he with he | ⟨he, hchanges⟩
    · rcases mem_cons.mp he with rfl | he
      · exact hbo
      · exact Std.TransCmp.lt_trans hbo ((pairwise_cons.mp hown).1 e he)
    · exact hfirst e ((mem_skip_iff hchanges below).mp he)

end Transaction

open Transaction in
/-- **Iterators.** The iterator of a transaction visits what is read through it, if the
iterator below visits what is read below. -/
theorem ListsFrom.iterate [Std.TransCmp cmp] [Std.LawfulEqCmp cmp] {tx : Transaction κ α cmp}
    {parent : κ → Option α} {key : κ} {below : List (κ × α)}
    (h : ListsFrom cmp parent key below) :
    ListsFrom cmp (tx.read parent) key (tx.iterate below key) := by
  have hown := listsFrom_storeFrom tx.writes key
  rw [storeFrom] at hown
  have hchanges : ∀ o ∈ tx.writes.toList.dropWhile (fun e => cmp e.1 key = .lt),
      tx.changes o.1 = true := by
    intro o ho
    have hread := ((hown.mem_iff o.1 o.2).mp ho).1
    have hmem : o.1 ∈ tx.writes := mem_iff_isSome_getElem?.mpr (by simp [hread])
    simp [changes, mem_iff_contains.mp hmem]
  refine ⟨pairwise_merge (skip_skip below) hchanges hown.sorted
    (h.sorted.sublist (dropWhile_sublist _)), fun k v => ?_⟩
  rw [Transaction.iterate, mem_merge_iff (skip_skip below), hown.mem_iff]
  -- the key is erased, written, or read below
  by_cases hdeleted : k ∈ tx.deletes
  · have hunwritten : tx.writes[k]? = none :=
      getElem?_eq_none fun hwritten => tx.disjoint k hwritten hdeleted
    simp [Transaction.read, changes, hdeleted, hunwritten,
      Std.TreeSet.mem_iff_contains.mp hdeleted]
  · have hdeleted' : tx.deletes.contains k = false := by
      rw [← Bool.not_eq_true]
      exact hdeleted
    cases hwritten : tx.writes[k]? with
    | some value =>
      simp [Transaction.read, changes, hdeleted, hwritten,
        contains_eq_isSome_getElem?]
    | none =>
      have hunchanged : tx.changes k = false := by
        simp [changes, hdeleted', hwritten, contains_eq_isSome_getElem?]
      simp [Transaction.read, hdeleted, hwritten, hunchanged,
        mem_skip_iff (e := (k, v)) hunchanged, h.mem_iff]

/-! ## Keys that are lists -/

section ListKeys

variable {β : Type} [Ord β]

lemma compare_append {x y : List β} (h : x.length = y.length) (a b : List β) :
    compare (x ++ a) (y ++ b) = (compare x y).then (compare a b) := by
  induction x generalizing y with
  | nil =>
    obtain rfl : y = [] := length_eq_zero_iff.mp h.symm
    rfl
  | cons u x ih =>
    cases y with
    | nil => cases h
    | cons w y =>
      rw [List.cons_append, List.cons_append, List.compare_cons_cons, List.compare_cons_cons,
        ih (by simpa using h), Ordering.then_assoc]

lemma compare_append_left [Std.ReflOrd β] (x a b : List β) :
    compare (x ++ a) (x ++ b) = compare a b := by
  have hself : compare x x = .eq := Std.ReflCmp.compare_self
  rw [compare_append rfl, hself, Ordering.then]

/-- What is between two keys that begin alike begins like them. -/
lemma exists_append_of_between [Std.LawfulEqOrd β] {x a b k : List β}
    (hlo : compare k (x ++ a) ≠ .lt) (hhi : compare k (x ++ b) = .lt) : ∃ r, k = x ++ r := by
  induction x generalizing k with
  | nil => exact ⟨k, rfl⟩
  | cons u x ih =>
    cases k with
    | nil => exact absurd List.compare_nil_cons hlo
    | cons w k =>
      rw [List.cons_append, List.compare_cons_cons] at hlo hhi
      cases hcmp : compare w u with
      | lt => simp [hcmp, Ordering.then] at hlo
      | gt => simp [hcmp, Ordering.then] at hhi
      | eq =>
        simp only [hcmp, Ordering.then] at hlo hhi
        obtain ⟨r, rfl⟩ := ih hlo hhi
        exact ⟨r, by rw [eq_of_compare hcmp, cons_append]⟩

end ListKeys

end HootChain.Foundation

import Mathlib.Tactic

/-!
# Sets with a Cache of Membership Tests

A set that is kept in a transactional store, with a cache of the answers to membership
tests. Inserting or removing an element drops its answer from the cache. The store can
be rolled back, and then the cache is left as it is: answers that were true inside the
transaction stay.
-/

namespace HootChain.Foundation

open Function List Option Bool

/-- A set and the answers cached about it. -/
structure CachedSet (κ : Type) where
  contents : κ → Bool
  cache : κ → Option Bool

namespace CachedSet

variable {κ : Type} [DecidableEq κ]

/-! ## Operations -/

/-- The empty set, nothing cached. -/
def empty : CachedSet κ := ⟨fun _ => false, fun _ => none⟩

section

variable (s : CachedSet κ)

/-- What a membership test returns. -/
def answer (k : κ) : Bool := (s.cache k).getD (s.contents k)

/-- The state after a membership test. -/
def query (k : κ) : CachedSet κ := { s with cache := update s.cache k (some (s.answer k)) }

/-- Puts an element in. -/
def insert (k : κ) : CachedSet κ := ⟨update s.contents k true, update s.cache k none⟩

/-- Takes an element out. -/
def remove (k : κ) : CachedSet κ := ⟨update s.contents k false, update s.cache k none⟩

/-- Goes back to the contents of `s`, with the cache of `s'`. -/
def rollback (s' : CachedSet κ) : CachedSet κ := ⟨s.contents, s'.cache⟩

/-- Drops cached answers. -/
def forget (drop : κ → Bool) : CachedSet κ :=
  { s with cache := fun k => if drop k then none else s.cache k }

end

/-! ## Answers -/

variable {s s' : CachedSet κ} {k : κ}

@[simp] lemma contents_query : (s.query k).contents = s.contents := rfl

@[simp] lemma cache_query : (s.query k).cache = update s.cache k (some (s.answer k)) := rfl

@[simp] lemma contents_insert : (s.insert k).contents = update s.contents k true := rfl

@[simp] lemma cache_insert : (s.insert k).cache = update s.cache k none := rfl

@[simp] lemma contents_remove : (s.remove k).contents = update s.contents k false := rfl

@[simp] lemma cache_remove : (s.remove k).cache = update s.cache k none := rfl

@[simp] lemma answer_query : (s.query k).answer = s.answer := by
  funext k'
  by_cases hk : k' = k
  · rw [hk, answer, cache_query, update_self, getD_some]
  · rw [answer, cache_query, update_of_ne hk, contents_query, answer]

lemma answer_insert_of_ne {k' : κ} (hne : k' ≠ k) : (s.insert k).answer k' = s.answer k' := by
  rw [answer, cache_insert, contents_insert, update_of_ne hne, update_of_ne hne, answer]

/-! ## Cached answers that are right -/

/-- Nothing is cached as absent that is there. -/
def Sound (s : CachedSet κ) : Prop := ∀ k, s.cache k = some false → s.contents k = false

omit [DecidableEq κ] in
lemma sound_empty : (empty : CachedSet κ).Sound := nofun

omit [DecidableEq κ] in
/-- A cached "no" survives a rollback to fewer elements. -/
lemma Sound.rollback (h : s'.Sound) (hle : ∀ k, s.contents k = true → s'.contents k = true) :
    (s.rollback s').Sound := by
  intro k hk
  show s.contents k = false
  by_contra hin
  have hkept := hle k (eq_true_of_not_eq_false hin)
  rw [h k hk] at hkept
  cases hkept

section

variable (h : s.Sound)

include h

omit [DecidableEq κ] in
/-- The answer "no" is right. -/
lemma Sound.contents_eq_false (hk : s.answer k = false) :
    s.contents k = false := by
  cases hcache : s.cache k with
  | none => rwa [answer, hcache] at hk
  | some b =>
    rw [answer, hcache, getD_some] at hk
    exact h k (hcache.trans (congrArg some hk))

omit [DecidableEq κ] in
lemma Sound.answer_eq_true (hk : s.contents k = true) : s.answer k = true := by
  by_contra hanswer
  rw [h.contents_eq_false (eq_false_of_not_eq_true hanswer)] at hk
  cases hk

omit [DecidableEq κ] in
/-- The answer "yes" is wrong only if it is cached. -/
lemma answer_eq_true_iff : s.answer k = true ↔
    s.contents k = true ∨ s.cache k = some true := by
  rw [answer]
  cases hcache : s.cache k with
  | none => simp
  | some b =>
    cases b with
    | true => simp
    | false => simp [h k hcache]

/-- A cached "no" stays right. -/
lemma Sound.query (k : κ) : (s.query k).Sound := by
  intro k' hk'
  by_cases hk : k' = k
  · rw [hk, cache_query, update_self] at hk'
    rw [hk]
    exact h.contents_eq_false (some.inj hk')
  · rw [cache_query, update_of_ne hk] at hk'
    exact h k' hk'

lemma Sound.update (k : κ) (b : Bool) : Sound ⟨update s.contents k b, update s.cache k none⟩ := by
  intro k' hk'
  by_cases hk : k' = k
  · simp [hk] at hk'
  · simp only [update_of_ne hk] at hk' ⊢
    exact h k' hk'

lemma Sound.insert (k : κ) : (s.insert k).Sound := h.update k true

lemma Sound.remove (k : κ) : (s.remove k).Sound := h.update k false

omit [DecidableEq κ] in
lemma Sound.forget (drop : κ → Bool) : (s.forget drop).Sound := by
  intro k hk
  simp only [CachedSet.forget] at hk
  split at hk
  · cases hk
  · exact h k hk

end

lemma contents_foldl_remove (l : List κ) (k : κ) :
    (l.foldl remove s).contents k = true ↔ s.contents k = true ∧ k ∉ l := by
  induction l generalizing s with
  | nil => simp
  | cons a l ih =>
    rw [foldl_cons, ih]
    by_cases hk : k = a <;> simp [hk]

lemma answer_remove (k k' : κ) :
    (s.remove k).answer k' = if k' = k then false else s.answer k' := by
  rw [answer]
  by_cases hk : k' = k
  · simp [hk]
  · simp [hk, answer]

lemma answer_foldl_remove (l : List κ) (k : κ) :
    (l.foldl remove s).answer k = true ↔ k ∉ l ∧ s.answer k = true := by
  induction l generalizing s with
  | nil => simp
  | cons a l ih =>
    rw [foldl_cons, ih, answer_remove]
    by_cases hk : k = a
    · simp [hk]
    · simp [hk]

lemma Sound.foldl_remove (h : s.Sound) (l : List κ) : (l.foldl CachedSet.remove s).Sound :=
  foldlRecOn l _ h fun _ h a _ => h.remove a

end CachedSet

end HootChain.Foundation

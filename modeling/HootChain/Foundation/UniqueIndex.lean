import Mathlib.Tactic

/-!
# Indexes of Unique Properties

A table that maps a property to the one owner that has it, with a count. Owners
claim, release and exchange properties; some values are null and are never held.
The table is described by the relation `holds` between owners and properties that
it indexes, and every operation by what it does to that relation.
-/

namespace HootChain.Foundation

open Function List Option

/-- Properties with their owner and a reference count. -/
abbrev UniqueIndex (π ο : Type) := π → Option (ο × Nat)

namespace UniqueIndex

variable {π ο : Type} (isNull : π → Bool)

/-! ## Operations -/

section

variable [DecidableEq π] [DecidableEq ο] (m : UniqueIndex π ο)

/-- `o` claims `p`; `none` if another owner has it. -/
def claim (o : ο) (p : π) : Option (UniqueIndex π ο) :=
  if isNull p then
    none
  else
    match m p with
    | none => some (update m p (some (o, 1)))
    | some (o', n) => if o' ≠ o then none else some (update m p (some (o, n + 1)))

/-- `o` releases `p`; `none` if it does not have it. -/
def release (o : ο) (p : π) : Option (UniqueIndex π ο) :=
  if isNull p then
    none
  else
    match m p with
    | none => none
    | some (o', n) =>
      if o' ≠ o then none
      else if n = 1 then some (update m p none)
      else some (update m p (some (o, n - 1)))

/-- `o` replaces `old` by `new`, unless `same` takes the one for the other. -/
def exchange (same : π → π → Bool) (o : ο) (old new : π) : Option (UniqueIndex π ο) :=
  if same old new then
    some m
  else
    (if isNull old then some m else release isNull m o old).bind fun m =>
      if isNull new then some m else claim isNull m o new

variable {isNull m} {m' : UniqueIndex π ο} {o : ο} {p : π}

lemma isNull_of_claim (h : claim isNull m o p = some m') : isNull p = false :=
  Bool.eq_false_of_not_eq_true fun hnull => by simp [claim, hnull] at h

lemma isNull_of_release (h : release isNull m o p = some m') : isNull p = false :=
  Bool.eq_false_of_not_eq_true fun hnull => by simp [release, hnull] at h

end

variable {p : π} {ps : List π}

/-- A pass over several properties, none of which may be null. -/
lemma isNull_of_foldlM {op : UniqueIndex π ο → π → Option (UniqueIndex π ο)}
    (hop : ∀ m p m', op m p = some m' → isNull p = false) {m m' : UniqueIndex π ο}
    (h : ps.foldlM op m = some m') : ∀ p ∈ ps, isNull p = false := by
  induction ps generalizing m with
  | nil => simp
  | cons p ps ih =>
    rw [foldlM_cons] at h
    obtain ⟨m₁, hfirst, hrest⟩ := bind_eq_some_iff.mp h
    intro q hq
    rcases mem_cons.mp hq with rfl | hq
    · exact hop _ _ _ hfirst
    · exact ih hrest q hq

/-! ## What an index says -/

/-- The table lists exactly the pairs of the relation, each once. -/
def Indexes (m : UniqueIndex π ο) (holds : ο → π → Prop) : Prop :=
  ∀ p o n, m p = some (o, n) ↔ n = 1 ∧ holds o p

variable {isNull} {m m' : UniqueIndex π ο} {holds : ο → π → Prop} {o : ο}

section

variable (h : Indexes m holds)

include h

lemma indexes_congr {holds' : ο → π → Prop}
    (heq : ∀ o p, holds o p ↔ holds' o p) : Indexes m holds' := by
  intro p o n
  rw [h p o n, heq o p]

lemma Indexes.get (hp : holds o p) : m p = some (o, 1) := (h p o 1).mpr ⟨rfl, hp⟩

/-- No two owners hold one property. -/
lemma Indexes.owner_unique {o' : ο} (hp : holds o p) (hp' : holds o' p) : o = o' := by
  have heq := (h.get hp).symm.trans (h.get hp')
  cases heq
  rfl

lemma Indexes.get_eq_none : m p = none ↔ ∀ o, ¬ holds o p := by
  constructor
  · intro hnone o hp
    rw [h.get hp] at hnone
    cases hnone
  · intro hfree
    cases hget : m p with
    | none => rfl
    | some entry => exact absurd ((h p entry.1 entry.2).mp hget).2 (hfree entry.1)

/-- The relation determines the table. -/
lemma Indexes.eq (h' : Indexes m' holds) : m = m' := by
  funext p
  cases hget : m p with
  | none => exact (h'.get_eq_none.mpr (h.get_eq_none.mp hget)).symm
  | some entry =>
    obtain ⟨hone, hp⟩ := (h p entry.1 entry.2).mp hget
    rw [h'.get hp, ← hone]

end

/-! ## Claims -/

section Claims

/-- The relation after `o` has claimed `ps`. -/
def withClaims (holds : ο → π → Prop) (o : ο) (ps : List π) (o' : ο) (p : π) : Prop :=
  holds o' p ∨ (o' = o ∧ p ∈ ps)

variable [DecidableEq π] [DecidableEq ο] (h : Indexes m holds)

include h

lemma claim_eq_some (hp : ¬ holds o p) (hclaim : claim isNull m o p = some m') :
    isNull p = false ∧ (∀ o', ¬ holds o' p) ∧ m' = update m p (some (o, 1)) := by
  unfold claim at hclaim
  split at hclaim
  · cases hclaim
  · next hnull =>
    refine ⟨by simpa using hnull, ?_⟩
    split at hclaim
    · next hnone => exact ⟨h.get_eq_none.mp hnone, (some.inj hclaim).symm⟩
    · next o' n hget =>
      -- an entry of `o` itself would be a property that `o` already holds
      split at hclaim
      · cases hclaim
      · next howner =>
        rw [not_not] at howner
        exact absurd (howner ▸ ((h p o' n).mp hget).2) hp

lemma claim_of_free (hnull : isNull p = false)
    (hfree : ∀ o', ¬ holds o' p) : claim isNull m o p = some (update m p (some (o, 1))) := by
  rw [claim, hnull, h.get_eq_none.mpr hfree]
  rfl

omit [DecidableEq ο] in
lemma indexes_update_claim (hfree : ∀ o', ¬ holds o' p) :
    Indexes (update m p (some (o, 1))) (withClaims holds o [p]) := by
  intro q o' n
  by_cases hq : q = p
  · subst hq
    simp only [update_self, withClaims, mem_singleton, and_true, hfree, false_or,
      some.injEq, Prod.mk.injEq]
    tauto
  · rw [update_of_ne hq, h q o' n]
    simp [withClaims, hq]

/-- A new owner claims its properties. -/
lemma indexes_claimAll (hnodup : ps.Nodup) (hnew : ∀ p ∈ ps, ¬ holds o p)
    (hclaim : ps.foldlM (claim isNull · o) m = some m') :
    Indexes m' (withClaims holds o ps) ∧ ∀ p ∈ ps, isNull p = false ∧ ∀ o', ¬ holds o' p := by
  induction ps generalizing m holds with
  | nil =>
    cases hclaim
    exact ⟨indexes_congr h (by simp [withClaims]), by simp⟩
  | cons p ps ih =>
    rw [nodup_cons] at hnodup
    obtain ⟨m₁, hfirst, hrest⟩ := bind_eq_some_iff.mp hclaim
    obtain ⟨hnull, hfree, rfl⟩ := claim_eq_some h (hnew p mem_cons_self) hfirst
    have hnew' : ∀ q ∈ ps, ¬ withClaims holds o [p] o q := by
      intro q hq hheld
      rcases hheld with hheld | ⟨-, hqp⟩
      · exact hnew q (mem_cons_of_mem _ hq) hheld
      · exact hnodup.1 (mem_singleton.mp hqp ▸ hq)
    obtain ⟨hindex, hall⟩ := ih (indexes_update_claim h hfree) hnodup.2 hnew' hrest
    refine ⟨indexes_congr hindex fun o' q => ?_, ?_⟩
    · simp only [withClaims, mem_cons]
      tauto
    · intro q hq
      rcases mem_cons.mp hq with rfl | hq
      · exact ⟨hnull, hfree⟩
      · exact ⟨(hall q hq).1, fun o' hheld => (hall q hq).2 o' (.inl hheld)⟩

/-- Claims go through if the properties are free. -/
lemma exists_claimAll (hnodup : ps.Nodup)
    (hfree : ∀ p ∈ ps, isNull p = false ∧ ∀ o', ¬ holds o' p) :
    ∃ m', ps.foldlM (claim isNull · o) m = some m' := by
  induction ps generalizing m holds with
  | nil => exact ⟨m, rfl⟩
  | cons p ps ih =>
    rw [nodup_cons] at hnodup
    obtain ⟨hnull, hp⟩ := hfree p mem_cons_self
    rw [foldlM_cons, claim_of_free h hnull hp]
    apply ih (indexes_update_claim h hp) hnodup.2
    intro q hq
    obtain ⟨hqnull, hqfree⟩ := hfree q (mem_cons_of_mem _ hq)
    refine ⟨hqnull, fun o' hheld => ?_⟩
    rcases hheld with hheld | ⟨-, hqp⟩
    · exact hqfree o' hheld
    · exact hnodup.1 (mem_singleton.mp hqp ▸ hq)

/-! ## Releases -/

/-- The relation after `o` has released `ps`. -/
def withoutClaims (holds : ο → π → Prop) (o : ο) (ps : List π) (o' : ο) (p : π) : Prop :=
  holds o' p ∧ ¬ (o' = o ∧ p ∈ ps)

lemma release_of_holds (hnull : isNull p = false) (hp : holds o p) :
    release isNull m o p = some (update m p none) := by
  rw [release, hnull, h.get hp]
  simp

lemma release_eq_some (hrelease : release isNull m o p = some m') :
    isNull p = false ∧ holds o p := by
  unfold release at hrelease
  split at hrelease
  · cases hrelease
  · next hnull =>
    refine ⟨by simpa using hnull, ?_⟩
    split at hrelease
    · cases hrelease
    · next o' n hget =>
      split at hrelease
      · cases hrelease
      · next howner =>
        rw [not_not] at howner
        exact howner ▸ ((h p o' n).mp hget).2

omit [DecidableEq ο] in
lemma indexes_update_release (hp : holds o p) :
    Indexes (update m p none) (withoutClaims holds o [p]) := by
  intro q o' n
  by_cases hq : q = p
  · subst hq
    have hown : holds o' q → o' = o := fun hheld => h.owner_unique hheld hp
    simp only [update_self, withoutClaims, mem_singleton, and_true]
    tauto
  · rw [update_of_ne hq, h q o' n]
    simp [withoutClaims, hq]

/-- An owner gives all its properties back. -/
lemma exists_releaseAll (hnodup : ps.Nodup) (hheld : ∀ p ∈ ps, isNull p = false ∧ holds o p) :
    ∃ m', ps.foldlM (release isNull · o) m = some m' ∧ Indexes m' (withoutClaims holds o ps) := by
  induction ps generalizing m holds with
  | nil => exact ⟨m, rfl, indexes_congr h (by simp [withoutClaims])⟩
  | cons p ps ih =>
    rw [nodup_cons] at hnodup
    obtain ⟨hnull, hp⟩ := hheld p mem_cons_self
    rw [foldlM_cons, release_of_holds h hnull hp]
    have hrest : ∀ q ∈ ps, isNull q = false ∧ withoutClaims holds o [p] o q := by
      intro q hq
      obtain ⟨hqnull, hqheld⟩ := hheld q (mem_cons_of_mem _ hq)
      refine ⟨hqnull, hqheld, fun hqp => hnodup.1 ?_⟩
      exact mem_singleton.mp hqp.2 ▸ hq
    obtain ⟨m', hfold, hindex⟩ := ih (indexes_update_release h hp) hnodup.2 hrest
    refine ⟨m', hfold, indexes_congr hindex fun o' q => ?_⟩
    simp only [withoutClaims, mem_cons]
    tauto

end Claims

/-! ## Exchanges -/

/-- The relation after `o` has replaced `old` by `new`. -/
def withExchange (isNull : π → Bool) (holds : ο → π → Prop) (o : ο) (old new : π) (o' : ο)
    (p : π) : Prop :=
  (holds o' p ∧ ¬ (o' = o ∧ p = old)) ∨ (o' = o ∧ p = new ∧ isNull p = false)

section Exchange

variable {old new : π}

lemma withExchange_self {p : π} : withExchange isNull holds o old new o p ↔
    (holds o p ∧ p ≠ old) ∨ (p = new ∧ isNull p = false) := by
  simp [withExchange]

lemma withExchange_of_ne {o' : ο} (ho : o' ≠ o) {p : π} :
    withExchange isNull holds o old new o' p ↔ holds o' p := by
  simp [withExchange, ho]

lemma not_withExchange_of_isNull (hnull : ∀ p, isNull p = true → ¬ holds o p) (p : π)
    (hp : isNull p = true) : ¬ withExchange isNull holds o old new o p := by
  rw [withExchange_self]
  rintro (⟨hheld, -⟩ | ⟨-, hnot⟩)
  · exact hnull p hp hheld
  · rw [hp] at hnot
    cases hnot

/-- The place of `old` among the properties of `o`, where `new` is to go. What `same` takes for
one value has to be one. -/
structure Slot (isNull : π → Bool) (same : π → π → Bool) (holds : ο → π → Prop) (o : ο)
    (old new : π) : Prop where
  same : same old new = true ↔ old = new
  null : ∀ p, isNull p = true → ¬ holds o p
  held : isNull old = false → holds o old
  other : new ≠ old → ¬ holds o new

variable [DecidableEq π] [DecidableEq ο] {same : π → π → Bool}

/-- The relation between the two halves of an exchange of different values. -/
lemma indexes_releaseHalf (h : Indexes m holds) (hnull : ∀ p, isNull p = true → ¬ holds o p)
    (hrelease : (if isNull old then some m else release isNull m o old) = some m') :
    Indexes m' (withoutClaims holds o [old]) := by
  split at hrelease
  · next hold =>
    cases hrelease
    refine indexes_congr h fun o' p => ?_
    have hnone := hnull old hold
    simp only [withoutClaims, mem_singleton]
    constructor
    · intro hp
      refine ⟨hp, ?_⟩
      rintro ⟨rfl, rfl⟩
      exact hnone hp
    · exact fun hp => hp.1
  · obtain ⟨hold, hheld⟩ := release_eq_some h hrelease
    rw [release_of_holds h hold hheld] at hrelease
    cases hrelease
    exact indexes_update_release h hheld

/-- An owner changes one property. -/
lemma indexes_exchange (h : Indexes m holds) (hslot : Slot isNull same holds o old new)
    (hex : exchange isNull m same o old new = some m') :
    Indexes m' (withExchange isNull holds o old new) := by
  unfold exchange at hex
  split at hex
  · -- nothing is exchanged
    next heq =>
    cases hex
    obtain rfl := hslot.same.mp heq
    refine indexes_congr h fun o' p => ?_
    by_cases hp : o' = o ∧ p = old
    · obtain ⟨rfl, rfl⟩ := hp
      cases hpn : isNull p with
      | true => simp [withExchange, hpn, hslot.null p hpn]
      | false => simp [withExchange, hpn, hslot.held hpn]
    · simp only [withExchange]
      tauto
  · -- the old value is released, and the new one claimed unless it is null
    next hne =>
    obtain ⟨m₁, hrelease, hclaim⟩ := bind_eq_some_iff.mp hex
    have hmid := indexes_releaseHalf h hslot.null hrelease
    have hnotheld : ¬ withoutClaims holds o [old] o new := fun hp =>
      hslot.other (fun heq => hne (hslot.same.mpr heq.symm)) hp.1
    split at hclaim
    · next hnew =>
      cases hclaim
      refine indexes_congr hmid fun o' p => ?_
      simp only [withoutClaims, withExchange, mem_singleton]
      constructor
      · exact .inl
      · rintro (hp | ⟨-, rfl, hpn⟩)
        · exact hp
        · rw [hnew] at hpn
          cases hpn
    · obtain ⟨hnew, hfree, rfl⟩ := claim_eq_some hmid hnotheld hclaim
      refine indexes_congr (indexes_update_claim hmid hfree) fun o' p => ?_
      simp only [withClaims, withoutClaims, withExchange, mem_singleton]
      constructor
      · rintro (hp | ⟨rfl, rfl⟩)
        · exact .inl hp
        · exact .inr ⟨rfl, rfl, hnew⟩
      · rintro (hp | ⟨rfl, rfl, -⟩)
        · exact .inl hp
        · exact .inr ⟨rfl, rfl⟩

/-- So does an exchange. -/
lemma exists_exchange (h : Indexes m holds) (hslot : Slot isNull same holds o old new)
    (hfree : isNull new = false → new = old ∨ ∀ o', ¬ holds o' new) :
    ∃ m', exchange isNull m same o old new = some m' := by
  unfold exchange
  split
  · exact ⟨m, rfl⟩
  · next hne =>
    have hhalf : ∃ m₁, (if isNull old then some m else release isNull m o old) = some m₁ := by
      split
      · exact ⟨m, rfl⟩
      · next hold =>
        rw [Bool.not_eq_true] at hold
        exact ⟨_, release_of_holds h hold (hslot.held hold)⟩
    obtain ⟨m₁, hrelease⟩ := hhalf
    rw [hrelease]
    split
    · exact ⟨m₁, rfl⟩
    · next hnew =>
      rw [Bool.not_eq_true] at hnew
      have hmid := indexes_releaseHalf h hslot.null hrelease
      have hunheld : ∀ o', ¬ withoutClaims holds o [old] o' new := by
        rcases hfree hnew with heq | hfree
        · exact absurd (hslot.same.mpr heq.symm) hne
        · exact fun o' hp => hfree o' hp.1
      exact ⟨_, claim_of_free hmid hnew hunheld⟩

end Exchange

end UniqueIndex

/-! ## Items with an index -/

section Files

variable {κ α π : Type} {items items' : κ → Option α} {index index' : π → Option κ}
  {has : α → π → Prop} {k : κ} {a : α}

/-- The index leads from all that a stored item has to the item, and from nothing else. -/
structure Files (items : κ → Option α) (index : π → Option κ) (has : α → π → Prop) : Prop where
  filed : ∀ {k a p}, items k = some a → has a p → index p = some k
  found : ∀ {p k}, index p = some k → ∃ a, items k = some a ∧ has a p

/-- Items are removed, each with its entries. -/
lemma Files.remove (h : Files items index has) {gone : κ → Prop} {freed : π → Prop}
    (hitems : ∀ {k a}, items' k = some a ↔ items k = some a ∧ ¬ gone k)
    (hindex : ∀ {p k}, index' p = some k ↔ index p = some k ∧ ¬ freed p)
    (hfreed : ∀ {k a p}, items k = some a → has a p → (freed p ↔ gone k)) :
    Files items' index' has where
  filed hk hp := by
    obtain ⟨hk, hkept⟩ := hitems.mp hk
    exact hindex.mpr ⟨h.filed hk hp, mt (hfreed hk hp).mp hkept⟩
  found hp := by
    obtain ⟨hp, hkept⟩ := hindex.mp hp
    obtain ⟨a, hk, ha⟩ := h.found hp
    exact ⟨a, hitems.mpr ⟨hk, mt (hfreed hk ha).mpr hkept⟩, ha⟩

/-- A new item may only have what no other item has. -/
lemma Files.write_iff [DecidableEq κ] [DecidablePred (has a)] (h : Files items index has)
    (hnew : items k = none) (hindex : ∀ p, index' p = if has a p then some k else index p) :
    Files (update items k (some a)) index' has ↔ ∀ p, has a p → index p = none := by
  have hother : ∀ {k' a'}, items k' = some a' → update items k (some a) k' = some a' ∧ k' ≠ k := by
    intro k' a' hk'
    have hne : k' ≠ k := by
      rintro rfl
      cases hnew.symm.trans hk'
    exact ⟨by rw [update_of_ne hne, hk'], hne⟩
  constructor
  · intro hafter p hp
    by_contra hlocked
    obtain ⟨k', hk'⟩ := ne_none_iff_exists'.mp hlocked
    obtain ⟨a', hstored, hp'⟩ := h.found hk'
    -- the other item is still stored, but the index leads to the new one
    have hentry := hafter.filed (hother hstored).1 hp'
    rw [hindex, if_pos hp] at hentry
    exact (hother hstored).2 (some.inj hentry).symm
  · refine fun hfree => ⟨fun {k' a' p} hk' hp => ?_, fun {p k'} hp => ?_⟩
    · rw [hindex]
      by_cases heq : k' = k
      · rw [heq, update_self] at hk'
        cases hk'
        rw [if_pos hp, heq]
      · rw [update_of_ne heq] at hk'
        have hentry := h.filed hk' hp
        rw [if_neg fun ha => (by simp [hfree p ha] at hentry), hentry]
    · rw [hindex] at hp
      split at hp
      case isTrue ha =>
        cases hp
        exact ⟨a, update_self .., ha⟩
      case isFalse =>
        obtain ⟨a', hk', ha'⟩ := h.found hp
        exact ⟨a', (hother hk').1, ha'⟩

end Files

end HootChain.Foundation

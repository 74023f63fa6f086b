import Mathlib.Data.List.Infix
import Mathlib.Data.List.Nodup
import Mathlib.Logic.Function.Basic
import Mathlib.Tactic.Common

/-!
# Runs of Events and Keyed Records

A system takes events one after the other. Where one step decides whether a property is
kept, the property holds in all states of a run exactly if every step is a good one.

Records are kept under keys; lists of them are written and erased one by one.
-/

namespace HootChain.Foundation

open List Prod Function

/-! ## Runs -/

section Runs

variable {State Event : Type} {step : State → Event → State} {Inv P : State → Prop}
  {Good : State → Event → Prop}

/-- **Runs.** If under an invariant exactly the good steps keep a property, then it holds
in all states of a run exactly if all its steps are good. -/
theorem forall_prefix_iff (hinv : ∀ s e, Inv s → Inv (step s e))
    (hstep : ∀ s e, Inv s → P s → (P (step s e) ↔ Good s e)) {s : State} (hs : Inv s) (hP : P s)
    (events : List Event) :
    (∀ before, before <+: events → P (before.foldl step s)) ↔
      ∀ before e, before ++ [e] <+: events → Good (before.foldl step s) e := by
  induction events using reverseRecOn with
  | nil => simpa using hP
  | append_singleton events a ih =>
    have hinv' : Inv (events.foldl step s) := foldlRecOn events step hs fun s h e _ => hinv s e h
    have hlast : ∀ before e, before ++ [e] = events ++ [a] ↔ before = events ∧ e = a := by simp
    simp only [prefix_concat_iff, or_imp, forall_and, forall_eq, hlast, and_imp, ih, foldl_append,
      foldl_cons, foldl_nil]
    -- the last step is good or not, in a state that has the property if those before it are
    refine and_congr_left fun hgood => ?_
    rw [hstep _ a hinv' (ih.mpr hgood events prefix_rfl)]
    exact ⟨fun h _ _ hbefore he => hbefore ▸ he ▸ h, fun h => h events a rfl rfl⟩

end Runs

/-! ## Records -/

section Records

variable {κ α : Type} [DecidableEq κ] {db : κ → Option α}

/-- Writes records, the later ones over the earlier ones. -/
def writeAll (records : List (κ × α)) (db : κ → Option α) : κ → Option α :=
  records.foldl (fun db r => update db r.1 (some r.2)) db

/-- Erases what is recorded under keys. -/
def eraseAll (keys : List κ) (db : κ → Option α) : κ → Option α :=
  keys.foldl (fun db key => update db key none) db

variable {key : κ} {value : α}

/-- What is recorded after many writes. -/
lemma writeAll_eq_some_iff {records : List (κ × α)} (hnodup : (records.map fst).Nodup) :
    writeAll records db key = some value ↔
      (key, value) ∈ records ∨ (key ∉ records.map fst ∧ db key = some value) := by
  induction records generalizing db with
  | nil => simp [writeAll]
  | cons r records ih =>
    obtain ⟨rkey, rvalue⟩ := r
    rw [map_cons, nodup_cons] at hnodup
    have hcons : writeAll ((rkey, rvalue) :: records) db =
        writeAll records (update db rkey (some rvalue)) := rfl
    rw [hcons, ih hnodup.2]
    by_cases hkey : key = rkey
    · subst hkey
      -- the record just written is not written over
      have hnot : (key, value) ∉ records := fun h => hnodup.1 (mem_map.mpr ⟨_, h, rfl⟩)
      simp [hnodup.1, hnot, eq_comm]
    · simp [hkey]

/-- What is recorded after many erasures. -/
lemma eraseAll_eq_some_iff {keys : List κ} :
    eraseAll keys db key = some value ↔ key ∉ keys ∧ db key = some value := by
  induction keys generalizing db with
  | nil => simp [eraseAll]
  | cons k keys ih =>
    have hcons : eraseAll (k :: keys) db = eraseAll keys (update db k none) := rfl
    rw [hcons, ih]
    by_cases hkey : key = k <;> simp [hkey]

/-- Erasing what was written undoes it, if nothing was written over. -/
lemma eraseAll_writeAll {records : List (κ × α)} (hnodup : (records.map fst).Nodup)
    (hnew : ∀ key ∈ records.map fst, db key = none) :
    eraseAll (records.map fst) (writeAll records db) = db := by
  funext key
  refine Option.ext fun value => ?_
  rw [eraseAll_eq_some_iff, writeAll_eq_some_iff hnodup]
  by_cases hkey : key ∈ records.map fst
  · simp [hkey, hnew key hkey]
  · have hnot : (key, value) ∉ records := fun hmem => hkey (mem_map_of_mem hmem)
    simp [hkey, hnot]

end Records

end HootChain.Foundation

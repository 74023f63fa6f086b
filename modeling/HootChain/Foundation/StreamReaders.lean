import Mathlib.Data.List.Basic

/-!
# Reading Back What Was Written

A reader takes what it needs from the front of a stream and returns a value and the rest,
or fails. `ReadsBack read written a` says that it reads `a` from `written`, whatever follows,
and leaves what follows alone. Readers of records and lists are made of readers of their
parts.
-/

namespace HootChain.Foundation

open List

variable {τ ε α β σ : Type}

/-- A computation that takes items from the front of a stream. -/
abbrev StreamReader (τ ε α : Type) := StateT (List τ) (Except ε) α

/-- The value is read from what was written, and the rest of the stream stays. -/
def ReadsBack (read : StreamReader τ ε α) (written : List τ) (a : α) : Prop :=
  ∀ rest, read (written ++ rest) = .ok (a, rest)

lemma reads_pure (a : α) : ReadsBack (pure a : StreamReader τ ε α) [] a := fun _ => rfl

variable {read : StreamReader τ ε α} {next : α → StreamReader τ ε β} {written : List τ} {a : α}
  {b : β} {write : α → List τ} {l : List α}

/-- Parts that are read one after the other. -/
lemma ReadsBack.bind {written' : List τ} (hread : ReadsBack read written a)
    (hnext : ReadsBack (next a) written' b) :
    ReadsBack (read >>= next) (written ++ written') b := by
  intro rest
  have hfirst := hread (written' ++ rest)
  rw [← append_assoc] at hfirst
  change (read (written ++ written' ++ rest)).bind (fun p => next p.1 p.2) = _
  rw [hfirst]
  exact hnext rest

/-- What a reader that is made of two has read. -/
lemma exists_of_bind_eq_ok {s s' : List τ} (h : (read >>= next) s = .ok (b, s')) :
    ∃ a s₁, read s = .ok (a, s₁) ∧ next a s₁ = .ok (b, s') := by
  change (read s).bind (fun p => next p.1 p.2) = _ at h
  cases hread : read s with
  | error e =>
    rw [hread] at h
    cases h
  | ok p =>
    rw [hread] at h
    exact ⟨p.1, p.2, rfl, h⟩

/-- A value that is made of the one that was read. -/
lemma ReadsBack.map (hread : ReadsBack read written a) (f : α → β) :
    ReadsBack (read >>= fun x => pure (f x)) written (f a) := by
  have hnext : ReadsBack (pure (f a) : StreamReader τ ε β) [] (f a) := reads_pure (f a)
  have hboth : ReadsBack (read >>= fun x => pure (f x)) (written ++ []) (f a) := hread.bind hnext
  rwa [append_nil] at hboth

/-- The whole stream was written. -/
lemma ReadsBack.all (hread : ReadsBack read written a) : read written = .ok (a, []) := by
  have hrun := hread []
  rwa [append_nil] at hrun

/-! ## Lists -/

/-- `n` values, one after the other. -/
def readMany (read : StreamReader τ ε α) : Nat → StreamReader τ ε (List α)
  | 0 => pure []
  | n + 1 => do
    let a ← read
    let l ← readMany read n
    pure (a :: l)

/-- A list whose length is known. -/
lemma ReadsBack.many (h : ∀ a ∈ l, ReadsBack read (write a) a) :
    ReadsBack (readMany read l.length) (l.flatMap write) l := by
  induction l with
  | nil => exact reads_pure []
  | cons a l ih =>
    refine (h a mem_cons_self).bind ?_
    exact (ih fun b hb => h b (mem_cons_of_mem _ hb)).map (a :: ·)

/-- Parts that are read into a state one after the other. -/
lemma ReadsBack.foldlM {read : σ → α → StreamReader τ ε σ} {assign : σ → α → σ}
    (h : ∀ s, ∀ a ∈ l, ReadsBack (read s a) (write a) (assign s a)) (s : σ) :
    ReadsBack (l.foldlM read s) (l.flatMap write) (l.foldl assign s) := by
  induction l generalizing s with
  | nil => exact reads_pure s
  | cons a l ih =>
    refine (h s a mem_cons_self).bind ?_
    exact ih (fun s b hb => h s b (mem_cons_of_mem _ hb)) (assign s a)

end HootChain.Foundation

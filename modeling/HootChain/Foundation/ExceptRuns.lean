import Mathlib.Tactic

/-!
# Runs That May Fail

When a computation in `Except` succeeds, and with what: binds, loops with a state,
and maps.
-/

namespace HootChain.Foundation

open List Except

variable {ε σ α β : Type}

@[simp] lemma isOk_ok (a : α) : (ok a : Except ε α).isOk = true := rfl

@[simp] lemma isOk_error (e : ε) : (error e : Except ε α).isOk = false := rfl

@[simp] lemma pure_eq_ok (a : α) : (pure a : Except ε α) = .ok a := rfl

@[simp] lemma ok_bind (a : α) (f : α → Except ε β) : ok a >>= f = f a := rfl

@[simp] lemma error_bind (e : ε) (f : α → Except ε β) : error e >>= f = .error e := rfl

variable {x : Except ε α} {f : σ → α → Except ε σ} {l : List α} {s s' : σ} {κ : Type}

lemma isOk_bind {f : α → Except ε β} :
    (x >>= f).isOk = true ↔ ∃ a, x = .ok a ∧ (f a).isOk = true := by
  cases x <;> simp

/-- A bind succeeds when both parts do. -/
lemma bind_eq_ok {f : α → Except ε β} {b : β} :
    x >>= f = .ok b ↔ ∃ a, x = .ok a ∧ f a = .ok b := by
  cases x <;> simp

/-- A loop succeeds if every round does. -/
lemma isOk_foldlM (h : ∀ s, ∀ a ∈ l, (f s a).isOk = true) (s : σ) :
    (l.foldlM f s).isOk = true := by
  induction l generalizing s with
  | nil => rfl
  | cons a l ih =>
    rw [foldlM_cons]
    cases hstep : f s a with
    | error e => exact absurd (h s a mem_cons_self) (by simp [hstep])
    | ok s' => exact ih (fun s a ha => h s a (mem_cons_of_mem _ ha)) s'

/-- A loop fails if some item fails in every state. -/
lemma not_isOk_foldlM {a : α} (ha : a ∈ l) (h : ∀ s, (f s a).isOk = false) (s : σ) :
    (l.foldlM f s).isOk = false := by
  induction l generalizing s with
  | nil => cases ha
  | cons b l ih =>
    rw [foldlM_cons]
    cases hstep : f s b with
    | error e => rfl
    | ok s' =>
      rcases mem_cons.mp ha with rfl | hmem
      · exact absurd (h s) (by simp [hstep])
      · exact ih hmem s'

/-- A loop keeps what every round keeps. -/
lemma foldlM_preserves (P : σ → Prop) (hstep : ∀ s a s', a ∈ l → P s → f s a = .ok s' → P s')
    (hs : P s) (hrun : l.foldlM f s = .ok s') : P s' := by
  induction l generalizing s with
  | nil =>
    cases hrun
    exact hs
  | cons a l ih =>
    rw [foldlM_cons, bind_eq_ok] at hrun
    obtain ⟨s₁, hfirst, hrest⟩ := hrun
    apply ih _ (hstep s a s₁ mem_cons_self hs hfirst) hrest
    exact fun s b s' hb => hstep s b s' (mem_cons_of_mem _ hb)

/-- A loop over items with keys of their own, whose rounds change the entry of their own key
only: every round finds its entry as it was at the start. -/
lemma foldlM_own (P : σ → Prop) (key : α → κ) (get : σ → κ → β) (start : κ → β)
    (hstep : ∀ s a s', a ∈ l → P s → get s (key a) = start (key a) → f s a = .ok s' → P s' ∧
      ∀ k, k ≠ key a → get s' k = get s k)
    (hnodup : (l.map key).Nodup) (hs : P s) (hstart : ∀ a ∈ l, get s (key a) = start (key a))
    (hrun : l.foldlM f s = .ok s') : P s' := by
  induction l generalizing s with
  | nil =>
    cases hrun
    exact hs
  | cons a l ih =>
    rw [map_cons, nodup_cons] at hnodup
    rw [foldlM_cons, bind_eq_ok] at hrun
    obtain ⟨s₁, hfirst, hrest⟩ := hrun
    obtain ⟨hs₁, hothers⟩ := hstep s a s₁ mem_cons_self hs (hstart a mem_cons_self) hfirst
    refine ih (fun s b s' hb => hstep s b s' (mem_cons_of_mem _ hb)) hnodup.2 hs₁
      (fun b hb => ?_) hrest
    rw [hothers _ fun heq => hnodup.1 (heq ▸ mem_map_of_mem hb)]
    exact hstart b (mem_cons_of_mem _ hb)

/-- A loop goes through if every round does from a state with the invariant. -/
lemma exists_foldlM (Inv : σ → Prop)
    (hstep : ∀ s, ∀ a ∈ l, Inv s → ∃ s', f s a = .ok s' ∧ Inv s') (hs : Inv s) :
    ∃ s', l.foldlM f s = .ok s' ∧ Inv s' := by
  induction l generalizing s with
  | nil => exact ⟨s, rfl, hs⟩
  | cons a l ih =>
    obtain ⟨s₁, hfirst, hs₁⟩ := hstep s a mem_cons_self hs
    obtain ⟨s', hrest, hs'⟩ := ih (fun s b hb => hstep s b (mem_cons_of_mem _ hb)) hs₁
    exact ⟨s', by rw [foldlM_cons, bind_eq_ok]; exact ⟨s₁, hfirst, hrest⟩, hs'⟩

/-- Each round of the loop gives the key of its item the value it has in `target` and
leaves the other keys alone. A round may rely on `Inv`, and on its key still being as
it was at the start. -/
lemma foldlM_resolves [DecidableEq κ] (Inv : σ → Prop) (key : α → κ) (get : σ → κ → β)
    (start target : κ → β)
    (hstep : ∀ s, ∀ a ∈ l, Inv s → get s (key a) = start (key a) → ∃ s', f s a = .ok s' ∧ Inv s' ∧
      ∀ k, get s' k = if k = key a then target k else get s k)
    (hnodup : (l.map key).Nodup) (hinv : Inv s) (hstart : ∀ a ∈ l, get s (key a) = start (key a)) :
    ∃ s', l.foldlM f s = .ok s' ∧ Inv s' ∧
      ∀ k, get s' k = if k ∈ l.map key then target k else get s k := by
  induction l generalizing s with
  | nil => exact ⟨s, rfl, hinv, by simp⟩
  | cons a l ih =>
    rw [map_cons, nodup_cons] at hnodup
    obtain ⟨s₁, hfirst, hinv₁, hget₁⟩ := hstep s a mem_cons_self hinv (hstart a mem_cons_self)
    have hstart₁ : ∀ b ∈ l, get s₁ (key b) = start (key b) := by
      intro b hb
      have hne : key b ≠ key a := fun heq => hnodup.1 (heq ▸ mem_map_of_mem hb)
      rw [hget₁, if_neg hne]
      exact hstart b (mem_cons_of_mem _ hb)
    obtain ⟨s', hrest, hinv', hget'⟩ :=
      ih (fun s b hb => hstep s b (mem_cons_of_mem _ hb)) hnodup.2 hinv₁ hstart₁
    refine ⟨s', ?_, hinv', fun k => ?_⟩
    · rw [foldlM_cons, hfirst]
      exact hrest
    · rw [hget', hget₁]
      by_cases hka : k = key a <;> simp [hka]

/-- A loop without a state goes through exactly when every round does. -/
lemma forM_eq_ok {f : α → Except ε Unit} : l.forM f = .ok () ↔ ∀ a ∈ l, f a = .ok () := by
  induction l with
  | nil => simp [List.forM]
  | cons a l ih =>
    have hcons : (a :: l).forM f = (f a >>= fun _ => l.forM f) := rfl
    rw [hcons, bind_eq_ok, forall_mem_cons, ← ih]
    exact ⟨fun ⟨(), ha, hl⟩ => ⟨ha, hl⟩, fun ⟨ha, hl⟩ => ⟨(), ha, hl⟩⟩

/-- A map succeeds exactly when it does on every item. -/
lemma isOk_mapM {f : α → Except ε β} : (l.mapM f).isOk = true ↔ ∀ a ∈ l, (f a).isOk = true := by
  induction l with
  | nil => simp
  | cons a l ih =>
    rw [mapM_cons, forall_mem_cons, ← ih, isOk_bind]
    cases hfa : f a with
    | error e => simp
    | ok b => cases hrest : l.mapM f <;> simp

end HootChain.Foundation

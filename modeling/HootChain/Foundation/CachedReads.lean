import HootChain.Foundation.ExceptRuns

/-!
# Programs That Read Through Caches

A program may fail, and keeps what it did to its state before it failed. It *reads*
when all it does to the state is hidden behind a view: the caches change, what they
stand for does not, and the result is a function of the view.

Reading programs compose, so that a result about a long one is put together from
results about its parts.
-/

namespace HootChain.Foundation

open List

variable {ε σ τ α β : Type}

/-! ## Programs -/

/-- A program with a state that outlives its failure. -/
abbrev Prog (ε σ α : Type) := ExceptT ε (StateM σ) α

/-- The result of a run and the state after it. -/
def runs (x : Prog ε σ α) (s : σ) : Except ε α × σ := x.run.run s

/-- A computation without state. -/
def Prog.lift (x : Except ε α) : Prog ε σ α := ExceptT.mk (pure x)

/-- Replaces failures: a handler that fails in its own way. -/
def Prog.rescue (handler : ε → ε) (x : Prog ε σ α) : Prog ε σ α :=
  ExceptT.mk do return (← x.run).mapError handler

@[simp] lemma runs_pure (a : α) (s : σ) : runs (pure a : Prog ε σ α) s = (.ok a, s) := rfl

@[simp] lemma runs_throw (e : ε) (s : σ) : runs (throw e : Prog ε σ α) s = (.error e, s) := rfl

@[simp] lemma runs_get (s : σ) : runs (get : Prog ε σ σ) s = (.ok s, s) := rfl

@[simp] lemma runs_set (s s' : σ) : runs (set s' : Prog ε σ Unit) s = (.ok (), s') := rfl

@[simp] lemma runs_modify (f : σ → σ) (s : σ) :
    runs (modify f : Prog ε σ Unit) s = (.ok (), f s) := rfl

@[simp] lemma runs_lift (x : Except ε α) (s : σ) : runs (Prog.lift x) s = (x, s) := rfl

@[simp] lemma runs_rescue (handler : ε → ε) (x : Prog ε σ α) (s : σ) :
    runs (Prog.rescue handler x) s = ((runs x s).1.mapError handler, (runs x s).2) := rfl

/-- How programs run one after the other. -/
lemma runs_bind (x : Prog ε σ α) (f : α → Prog ε σ β) (s : σ) :
    runs (x >>= f) s = match runs x s with
      | (.ok a, s') => runs (f a) s'
      | (.error e, s') => (.error e, s') := by
  have hbind : runs (x >>= f) s = runs (ExceptT.mk (ExceptT.bindCont f (runs x s).1)) (runs x s).2 :=
    rfl
  rw [hbind]
  cases hrun : runs x s with
  | mk result s' => cases result <;> rfl

variable {x : Prog ε σ α} {s s' : σ} {a : α} {view : σ → τ} {r : τ → Except ε α}

lemma runs_bind_of_ok (hx : runs x s = (.ok a, s')) (f : α → Prog ε σ β) :
    runs (x >>= f) s = runs (f a) s' := by
  rw [runs_bind, hx]

lemma runs_bind_eq_ok {f : α → Prog ε σ β} {b : β} :
    runs (x >>= f) s = (.ok b, s') ↔
      ∃ a s₁, runs x s = (.ok a, s₁) ∧ runs (f a) s₁ = (.ok b, s') := by
  rw [runs_bind]
  rcases runs x s with ⟨_ | a, s₁⟩ <;> simp

lemma runs_bind_of_error {e : ε} (hx : runs x s = (.error e, s')) (f : α → Prog ε σ β) :
    runs (x >>= f) s = (.error e, s') := by
  rw [runs_bind, hx]

lemma runs_rescue_of_ok (hx : runs x s = (.ok a, s')) (handler : ε → ε) :
    runs (Prog.rescue handler x) s = (.ok a, s') := by
  rw [runs_rescue, hx]
  rfl

lemma mapError_eq_ok {handler : ε → ε} {x : Except ε α} :
    x.mapError handler = .ok a ↔ x = .ok a := by
  cases x <;> simp [Except.mapError]

/-! ## Reading -/

/-- In states with the invariant, the program leaves the view alone and its result is a
function of the view. -/
structure Reads (Inv : σ → Prop) (view : σ → τ) (x : Prog ε σ α) (r : τ → Except ε α) : Prop where
  result : ∀ {s}, Inv s → (runs x s).1 = r (view s)
  inv : ∀ {s}, Inv s → Inv (runs x s).2
  view : ∀ {s}, Inv s → view (runs x s).2 = view s

namespace Reads

variable {Inv : σ → Prop} {view : σ → τ} {x : Prog ε σ α} {r : τ → Except ε α}

lemma exists_runs (hx : Reads Inv view x r) {s : σ} (hs : Inv s) :
    ∃ s', runs x s = (r (view s), s') ∧ Inv s' ∧ view s' = view s :=
  ⟨(runs x s).2, Prod.ext (hx.result hs) rfl, hx.inv hs, hx.view hs⟩

lemma lift (x : Except ε α) : Reads Inv view (Prog.lift x) fun _ => x :=
  ⟨fun _ => rfl, fun h => h, fun _ => rfl⟩

lemma congr {r' : τ → Except ε α} (hx : Reads Inv view x r) (hr : ∀ v, r v = r' v) :
    Reads Inv view x r' :=
  (funext hr : r = r') ▸ hx

/-- Composed programs read if their parts do. -/
lemma bind {f : α → Prog ε σ β} {q : α → τ → Except ε β} (hx : Reads Inv view x r)
    (hf : ∀ a, Reads Inv view (f a) (q a)) :
    Reads Inv view (x >>= f) fun v => r v >>= fun a => q a v := by
  -- the second program starts in a state with the same view
  have hrun : ∀ {s}, Inv s → (runs (x >>= f) s).1 = (r (view s) >>= fun a => q a (view s)) ∧
      Inv (runs (x >>= f) s).2 ∧ view (runs (x >>= f) s).2 = view s := by
    intro s hs
    have hresult := hx.result hs
    have hinv := hx.inv hs
    have hview := hx.view hs
    rw [← hresult]
    cases hfirst : runs x s with
    | mk result s' =>
      simp only [hfirst] at hinv hview
      cases result with
      | error e =>
        rw [runs_bind_of_error hfirst]
        exact ⟨rfl, hinv, hview⟩
      | ok a =>
        rw [runs_bind_of_ok hfirst]
        refine ⟨?_, (hf a).inv hinv, ((hf a).view hinv).trans hview⟩
        rw [(hf a).result hinv, hview]
        rfl
  exact ⟨fun hs => (hrun hs).1, fun hs => (hrun hs).2.1, fun hs => (hrun hs).2.2⟩

lemma forM {l : List α} {f : α → Prog ε σ Unit} {r : α → τ → Except ε Unit}
    (hf : ∀ a ∈ l, Reads Inv view (f a) (r a)) :
    Reads Inv view (l.forM f) fun v => l.forM fun a => r a v := by
  induction l with
  | nil => exact lift (.ok ())
  | cons a l ih =>
    exact (hf a mem_cons_self).bind fun _ => ih fun b hb => hf b (mem_cons_of_mem _ hb)

lemma rescue (handler : ε → ε) (hx : Reads Inv view x r) :
    Reads Inv view (Prog.rescue handler x) fun v => (r v).mapError handler := by
  refine ⟨fun hs => ?_, hx.inv, hx.view⟩
  rw [runs_rescue, hx.result hs]

end Reads

/-! ## Invariants of programs -/

/-- Whether the program fails or not, the state after it has the invariant. -/
def Preserves (Inv : σ → Prop) (x : Prog ε σ α) : Prop := ∀ s, Inv s → Inv (runs x s).2

namespace Preserves

variable {Inv : σ → Prop}

/-- Failing programs keep the invariant, too. -/
lemma bind {x : Prog ε σ α} {f : α → Prog ε σ β} (hx : Preserves Inv x)
    (hf : ∀ a, Preserves Inv (f a)) : Preserves Inv (x >>= f) := by
  intro s hs
  have hfirst := hx s hs
  rw [runs_bind]
  cases hrun : runs x s with
  | mk result s' =>
    rw [hrun] at hfirst
    cases result with
    | error e => exact hfirst
    | ok a => exact hf a s' hfirst

lemma forM {l : List α} {f : α → Prog ε σ Unit} (hf : ∀ a ∈ l, Preserves Inv (f a)) :
    Preserves Inv (l.forM f) := by
  induction l with
  | nil => exact fun _ hs => hs
  | cons a l ih =>
    exact (hf a mem_cons_self).bind fun _ => ih fun b hb => hf b (mem_cons_of_mem _ hb)

end Preserves

lemma Reads.preserves {Inv : σ → Prop} (hx : Reads Inv view x r) : Preserves Inv x :=
  fun _ hs => hx.inv hs

/-! ## Programs that cannot tell states apart -/

/-- From related states the program has the same result and ends in related states. -/
def Respects (R : σ → σ → Prop) (x : Prog ε σ α) : Prop :=
  ∀ s s', R s s' → (runs x s).1 = (runs x s').1 ∧ R (runs x s).2 (runs x s').2

namespace Respects

variable {R : σ → σ → Prop}

lemma lift (x : Except ε α) : Respects R (Prog.lift x : Prog ε σ α) := fun _ _ h => ⟨rfl, h⟩

lemma bind {x : Prog ε σ α} {f : α → Prog ε σ β} (hx : Respects R x)
    (hf : ∀ a, Respects R (f a)) : Respects R (x >>= f) := by
  intro s s' h
  have hfirst := hx s s' h
  rw [runs_bind, runs_bind]
  cases hrun : runs x s with
  | mk result s₁ =>
    cases hrun' : runs x s' with
    | mk result' s₁' =>
      rw [hrun, hrun'] at hfirst
      obtain ⟨rfl, hrel⟩ := hfirst
      cases result with
      | error e => exact ⟨rfl, hrel⟩
      | ok a => exact hf a s₁ s₁' hrel

lemma forM {l : List α} {f : α → Prog ε σ Unit} (hf : ∀ a ∈ l, Respects R (f a)) :
    Respects R (l.forM f) := by
  induction l with
  | nil => exact fun _ _ h => ⟨rfl, h⟩
  | cons a l ih =>
    exact (hf a mem_cons_self).bind fun _ => ih fun b hb => hf b (mem_cons_of_mem _ hb)

end Respects

/-- What reads through a view cannot tell states with the same view apart. -/
lemma Reads.respects (hx : Reads (fun _ => True) view x r) :
    Respects (fun s s' => view s = view s') x := by
  intro s s' h
  refine ⟨?_, ?_⟩
  · rw [hx.result trivial, hx.result trivial, h]
  · show view (runs x s).2 = view (runs x s').2
    rw [hx.view trivial, hx.view trivial, h]

/-! ## Loops that succeed -/

/-- A loop that succeeds has succeeded in its first round, and then in the others. -/
lemma runs_forM_cons_eq_ok {l : List α} {f : α → Prog ε σ Unit} :
    runs ((a :: l).forM f) s = (.ok (), s') ↔
      ∃ s₁, runs (f a) s = (.ok (), s₁) ∧ runs (l.forM f) s₁ = (.ok (), s') := by
  have hcons : (a :: l).forM f = (f a >>= fun _ => l.forM f) := rfl
  rw [hcons, runs_bind_eq_ok]
  exact Unique.exists_iff

end HootChain.Foundation

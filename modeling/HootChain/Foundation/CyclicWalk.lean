import Mathlib.Tactic

/-!
# Walks Round a Circle

A walk goes round `n` positions, and takes each of them or passes it by. What is written
down of it is where it passed. A reader goes round as well: it passes a position that is
the next one on its list, and takes any other.

The reader cannot tell in which lap a position was passed. It finds what the walk has taken
exactly if no position is passed right after a lap in which all were taken.
-/

namespace HootChain.Foundation.CyclicWalk

open List Nat

/-! ## Walks -/

/-- The position after `p`. -/
def next (n p : Nat) : Nat := if p + 1 = n then 0 else p + 1

/-- The positions at which a walk from `p` does `b`: take (`true`) or pass (`false`). -/
def visited (n : Nat) (b : Bool) : Nat → List Bool → List Nat
  | _, [] => []
  | p, step :: w =>
    if step = b then p :: visited n b (next n p) w else visited n b (next n p) w

/-- The positions that are taken. -/
abbrev taken (n : Nat) : Nat → List Bool → List Nat := visited n true

/-- The positions that are passed. -/
abbrev passed (n : Nat) : Nat → List Bool → List Nat := visited n false

/-- The walk does not end by passing a position. -/
def Closed (w : List Bool) : Prop := w.getLast? ≠ some false

/-- Some position is passed right after a lap in which all were taken. -/
def PassesAfterLap (n : Nat) (w : List Bool) : Prop := (replicate n true ++ [false]) <:+: w

/-! ## Readers -/

/-- Passes the positions that are the next ones on the list. -/
def passListed (n : Nat) : Nat → List Nat → Nat × List Nat
  | p, [] => (p, [])
  | p, s :: l => if p = s then passListed n (next n p) l else (p, s :: l)

/-- Takes `quota` positions: what is taken, and what is left. -/
def readGroup (n : Nat) : Nat → Nat → List Nat → List Nat × Nat × List Nat
  | 0, p, l => ([], p, l)
  | quota + 1, p, l =>
    let start := passListed n p l
    let rest := readGroup n quota (next n start.1) start.2
    (start.1 :: rest.1, rest.2)

/-- Takes `quota` positions for each of `groups` groups. -/
def readGroups (n quota : Nat) : Nat → Nat → List Nat → List (List Nat)
  | 0, _, _ => []
  | groups + 1, p, l =>
    let group := readGroup n quota p l
    group.1 :: readGroups n quota groups group.2.1 group.2.2

/-! ## Positions -/

section Positions

variable {n p x : Nat} {b : Bool} {w : List Bool}

lemma next_lt (hp : p < n) : next n p < n := by
  unfold next
  split <;> omega

lemma next_eq_mod (hp : p < n) : next n p = (p + 1) % n := by
  unfold next
  split
  case isTrue h => rw [h, mod_self]
  case isFalse h => rw [mod_eq_of_lt (by omega)]

lemma next_add_mod (hp : p < n) (a : Nat) : (next n p + a) % n = (p + (a + 1)) % n := by
  rw [next_eq_mod hp, mod_add_mod]
  congr 1
  omega

lemma add_mod_ne (hp : p < n) {a : Nat} (ha : 0 < a) (han : a < n) : (p + a) % n ≠ p := by
  intro heq
  by_cases hlt : p + a < n
  · rw [mod_eq_of_lt hlt] at heq
    omega
  · rw [mod_eq_sub_mod (by omega), mod_eq_of_lt (by omega)] at heq
    omega

lemma length_visited (n p : Nat) (b : Bool) (w : List Bool) :
    (visited n b p w).length = w.count b := by
  induction w generalizing p with
  | nil => rfl
  | cons step w ih =>
    rw [visited]
    split
    case isTrue h => simp [h, ih]
    case isFalse h => simp [h, ih]

lemma lt_of_mem_visited (hp : p < n) (hx : x ∈ visited n b p w) : x < n := by
  induction w generalizing p with
  | nil => cases hx
  | cons step w ih =>
    rw [visited] at hx
    split at hx
    · rcases mem_cons.mp hx with rfl | hx
      · exact hp
      · exact ih (next_lt hp) hx
    · exact ih (next_lt hp) hx

lemma visited_append (n p : Nat) (b : Bool) (u w : List Bool) :
    visited n b p (u ++ w) = visited n b p u ++ visited n b ((u.foldl fun p _ => next n p) p) w := by
  induction u generalizing p with
  | nil => rfl
  | cons step u ih =>
    simp only [cons_append, visited, ih, foldl_cons]
    split <;> rfl

/-- Where a walk first does `b`. -/
lemma head?_visited (hp : p < n) :
    (visited n b p w).head? = some x ↔ ∃ a, x = (p + a) % n ∧ (replicate a (!b) ++ [b]) <+: w := by
  induction w generalizing p with
  | nil => simp [visited]
  | cons step w ih =>
    rw [visited]
    by_cases hstep : step = b
    · subst hstep
      simp only [if_true, head?_cons, Option.some.injEq]
      constructor
      · rintro rfl
        exact ⟨0, (mod_eq_of_lt hp).symm, by simp⟩
      · rintro ⟨a, rfl, ha⟩
        cases a with
        | zero => exact (mod_eq_of_lt hp).symm
        | succ a => simp [replicate_succ] at ha
    · have hnot : step = !b := by cases step <;> cases b <;> simp_all
      simp only [hstep, if_false]
      rw [ih (next_lt hp)]
      constructor
      · rintro ⟨a, rfl, ha⟩
        refine ⟨a + 1, next_add_mod hp a, ?_⟩
        rw [replicate_succ, cons_append, cons_prefix_cons]
        exact ⟨hnot.symm, ha⟩
      · rintro ⟨a, rfl, ha⟩
        cases a with
        | zero => simp [Ne.symm hstep] at ha
        | succ a =>
          rw [replicate_succ, cons_append, cons_prefix_cons] at ha
          exact ⟨a, (next_add_mod hp a).symm, ha.2⟩

end Positions

/-! ## Reading one walk -/

section Reading

variable {n p : Nat} {w : List Bool} {l : List Nat}

lemma passListed_of_head?_ne (h : l.head? ≠ some p) : passListed n p l = (p, l) := by
  cases l with
  | nil => rfl
  | cons s l =>
    rw [passListed, if_neg]
    exact fun heq => h (by rw [heq]; rfl)

lemma passListed_cons_self (n p : Nat) (l : List Nat) :
    passListed n p (p :: l) = passListed n (next n p) l := by
  rw [passListed, if_pos rfl]

lemma length_passListed_le (n p : Nat) (l : List Nat) :
    (passListed n p l).2.length ≤ l.length := by
  induction l generalizing p with
  | nil => exact le_rfl
  | cons s l ih =>
    rw [passListed]
    split
    · exact (ih _).trans (le_succ _)
    · exact le_rfl

lemma length_passListed_lt (h : l.head? = some p) : (passListed n p l).2.length < l.length := by
  cases l with
  | nil => cases h
  | cons s l =>
    cases h
    rw [passListed_cons_self]
    exact lt_succ_of_le (length_passListed_le ..)

lemma passListed_lt (hp : p < n) (l : List Nat) : (passListed n p l).1 < n := by
  induction l generalizing p with
  | nil => exact hp
  | cons s l ih =>
    rw [passListed]
    split
    · exact ih (next_lt hp)
    · exact hp

variable {quota : Nat} {step : Bool}

lemma lt_of_mem_readGroup {x : Nat} (hp : p < n) (hx : x ∈ (readGroup n quota p l).1) :
    x < n := by
  induction quota generalizing p l with
  | zero => cases hx
  | succ quota ih =>
    rcases mem_cons.mp hx with rfl | hx
    · exact passListed_lt hp l
    · exact ih (next_lt (passListed_lt hp l)) hx

lemma readGroup_cons_self (hquota : quota ≠ 0) (n p : Nat) (l : List Nat) :
    readGroup n quota p (p :: l) = readGroup n quota (next n p) l := by
  cases quota with
  | zero => exact absurd rfl hquota
  | succ quota => rw [readGroup, passListed_cons_self, readGroup]

lemma readGroup_succ_of_head?_ne (h : l.head? ≠ some p) (quota : Nat) :
    (readGroup n (quota + 1) p l).1 = p :: (readGroup n quota (next n p) l).1 := by
  rw [readGroup, passListed_of_head?_ne h]

lemma Closed.tail (h : Closed (step :: w)) : Closed w := by
  cases w with
  | nil => exact nofun
  | cons step' w => exact h

/-- A walk that is closed and passes first has still something to take. -/
lemma Closed.count_ne_zero (h : Closed (false :: w)) : w.count true ≠ 0 := by
  rcases eq_nil_or_concat w with rfl | ⟨init, last, rfl⟩
  · exact absurd rfl h
  · have hlast : last = true := by simpa [Closed, getLast?_cons] using h
    simp [hlast]

/-- The reader passes a position that the walk takes if it is on the list for a later lap. -/
def Readable (n : Nat) : Nat → List Bool → Prop
  | _, [] => True
  | p, true :: w => (passed n (next n p) w).head? ≠ some p ∧ Readable n (next n p) w
  | p, false :: w => Readable n (next n p) w

/-- A run that is followed by another step ends in shorter ones. -/
lemma run_suffix {a k : Nat} (h : k ≤ a) (b : Bool) (tail : List Bool) :
    (replicate k b ++ tail) <:+ (replicate a b ++ tail) := by
  obtain ⟨d, rfl⟩ := Nat.exists_eq_add_of_le' h
  rw [replicate_add, append_assoc]
  exact suffix_append ..

lemma readable_iff (hp : p < n) : Readable n p w ↔ ¬ PassesAfterLap n w := by
  induction w generalizing p with
  | nil => simp [Readable, PassesAfterLap]
  | cons step w ih =>
    rw [PassesAfterLap, infix_cons_iff, not_or, ← PassesAfterLap, ← ih (next_lt hp)]
    obtain ⟨k, rfl⟩ : ∃ k, n = k + 1 := ⟨n - 1, by omega⟩
    cases step with
    | false => simp [Readable, replicate_succ]
    | true =>
      rw [replicate_succ, cons_append, cons_prefix_cons]
      refine and_congr_left fun hrest => not_congr ?_
      rw [head?_visited (next_lt hp)]
      constructor
      · rintro ⟨a, heq, hhead⟩
        -- a longer run would hold a lap and the pass after it
        have hlt : a < k + 1 := by
          by_contra hle
          refine (ih (next_lt hp)).mp hrest (List.IsInfix.trans ?_ hhead.isInfix)
          exact (run_suffix (by omega) true [false]).isInfix
        rw [next_add_mod hp] at heq
        obtain rfl | hne := eq_or_lt_of_le (le_of_lt_succ hlt)
        · exact ⟨rfl, hhead⟩
        · exact absurd heq.symm (add_mod_ne hp (succ_pos a) (by omega))
      · rintro ⟨-, hhead⟩
        refine ⟨k, ?_, hhead⟩
        rw [next_add_mod hp, add_mod_right, mod_eq_of_lt hp]

lemma readGroup_of_readable (hclosed : Closed w) (hreadable : Readable n p w) :
    (readGroup n (w.count true) p (passed n p w)).1 = taken n p w := by
  induction w generalizing p with
  | nil => rfl
  | cons step w ih =>
    cases step with
    | false =>
      rw [count_cons_of_ne (by decide), passed, visited, if_pos rfl,
        readGroup_cons_self hclosed.count_ne_zero]
      exact ih hclosed.tail hreadable
    | true =>
      rw [count_cons_self, passed, visited, if_neg (by decide),
        readGroup_succ_of_head?_ne hreadable.1, ih hclosed.tail hreadable.2]
      rfl

/-- Without a full lap of passes, the first position taken is not the first one passed. -/
lemma head?_taken_ne (hp : p < n) (hlap : ¬ replicate n false <:+: false :: w) :
    (taken n p (false :: w)).head? ≠ some p := by
  intro hhead
  obtain ⟨a, heq, hhead⟩ := (head?_visited hp).mp hhead
  have hlt : a < n := by
    by_contra hle
    refine hlap (List.IsInfix.trans ?_ hhead.isInfix)
    have hrun := run_suffix (not_lt.mp hle) false []
    rw [append_nil, append_nil] at hrun
    exact hrun.isInfix.trans (prefix_append ..).isInfix
  cases a with
  | zero => simp at hhead
  | succ a => exact add_mod_ne hp (succ_pos a) hlt heq.symm

lemma not_infix_tail {u : List Bool} (h : ¬ u <:+: step :: w) : ¬ u <:+: w :=
  fun hsub => h (hsub.trans (suffix_cons ..).isInfix)

section

variable (hp : p < n) (hclosed : Closed w) (hlap : ¬ replicate n false <:+: w)

include hp hclosed hlap

/-- A reader that finds what was taken has passed at least as often as the walk. -/
lemma count_le_length_of_readGroup (hread : (readGroup n (w.count true) p l).1 = taken n p w) :
    w.count false ≤ l.length := by
  induction w generalizing p l with
  | nil => exact zero_le _
  | cons step w ih =>
    cases step with
    | false =>
      rw [count_cons_of_ne (by decide)] at hread
      rw [count_cons_self]
      -- the reader has to pass the position too, as the walk takes another one first
      by_cases hhead : l.head? = some p
      · cases l with
        | nil => cases hhead
        | cons s l =>
          cases hhead
          rw [readGroup_cons_self hclosed.count_ne_zero] at hread
          exact succ_le_succ (ih (next_lt hp) hclosed.tail (not_infix_tail hlap) hread)
      · obtain ⟨quota, hquota⟩ := exists_eq_succ_of_ne_zero hclosed.count_ne_zero
        rw [hquota, readGroup_succ_of_head?_ne hhead] at hread
        exact absurd (by rw [← hread]; rfl) (head?_taken_ne hp hlap)
    | true =>
      rw [count_cons_self] at hread
      obtain ⟨hstart, hrest⟩ := cons.inj hread
      simp only [hstart] at hrest
      exact (ih (next_lt hp) hclosed.tail (not_infix_tail hlap) hrest).trans
        (length_passListed_le ..)

lemma readable_of_readGroup
    (hread : (readGroup n (w.count true) p (passed n p w)).1 = taken n p w) : Readable n p w := by
  induction w generalizing p with
  | nil => trivial
  | cons step w ih =>
    cases step with
    | false =>
      rw [count_cons_of_ne (by decide), passed, visited, if_pos rfl,
        readGroup_cons_self hclosed.count_ne_zero] at hread
      exact ih (next_lt hp) hclosed.tail (not_infix_tail hlap) hread
    | true =>
      have hnot : (passed n (next n p) w).head? ≠ some p := by
        intro hhead
        rw [count_cons_self] at hread
        obtain ⟨hstart, hrest⟩ := cons.inj hread
        simp only [hstart] at hrest
        -- one entry of the list is used up here, and the others are too few
        have hcount := count_le_length_of_readGroup (next_lt hp) hclosed.tail
          (not_infix_tail hlap) hrest
        rw [← length_visited n (next n p) false w] at hcount
        exact absurd (length_passListed_lt hhead) (not_lt.mpr hcount)
      refine ⟨hnot, ih (next_lt hp) hclosed.tail (not_infix_tail hlap) ?_⟩
      rw [count_cons_self, passed, visited, if_neg (by decide),
        readGroup_succ_of_head?_ne hnot] at hread
      exact (cons.inj hread).2

/-- **One walk.** The reader finds what was taken exactly if no position is passed right after
a lap in which all were taken. -/
theorem readGroup_eq_taken_iff :
    (readGroup n (w.count true) p (passed n p w)).1 = taken n p w ↔ ¬ PassesAfterLap n w := by
  rw [← readable_iff hp]
  exact ⟨readable_of_readGroup hp hclosed hlap, readGroup_of_readable hclosed⟩

end

end Reading

/-! ## Several groups -/

section Groups

variable {n p quota : Nat} {ws : List (List Bool)} {u v w : List Bool}

/-- Where a walk ends. -/
def ending (n p : Nat) (w : List Bool) : Nat := w.foldl (fun p _ => next n p) p

/-- What the walks of the groups take, one after the other. -/
def takenGroups (n : Nat) : Nat → List (List Bool) → List (List Nat)
  | _, [] => []
  | p, w :: ws => taken n p w :: takenGroups n (ending n p w) ws

lemma flatten_takenGroups (n p : Nat) (ws : List (List Bool)) :
    (takenGroups n p ws).flatten = taken n p ws.flatten := by
  induction ws generalizing p with
  | nil => rfl
  | cons w ws ih =>
    rw [takenGroups, flatten_cons, ih, flatten_cons, taken, visited_append]
    rfl

lemma map_length_takenGroups_iff : (takenGroups n p ws).map length =
    replicate ws.length quota ↔ ∀ w ∈ ws, w.count true = quota := by
  have hlength : ∀ p, (takenGroups n p ws).map length = ws.map (count true) := by
    induction ws with
    | nil => exact fun _ => rfl
    | cons w ws ih => exact fun p => by rw [takenGroups, map_cons, ih, length_visited, map_cons]
  rw [hlength, map_eq_replicate_iff]

lemma length_readGroup (n quota p : Nat) (l : List Nat) :
    (readGroup n quota p l).1.length = quota := by
  induction quota generalizing p l with
  | zero => rfl
  | succ quota ih => rw [readGroup, length_cons, ih]

lemma map_length_readGroups (n quota groups p : Nat) (l : List Nat) :
    (readGroups n quota groups p l).map length = replicate groups quota := by
  induction groups generalizing p l with
  | zero => rfl
  | succ groups ih =>
    rw [readGroups, map_cons, ih, length_readGroup]
    rfl

lemma readGroup_add (n a b p : Nat) (l : List Nat) :
    (readGroup n (a + b) p l).1 = (readGroup n a p l).1 ++
      (readGroup n b (readGroup n a p l).2.1 (readGroup n a p l).2.2).1 := by
  induction a generalizing p l with
  | zero => rw [zero_add]; rfl
  | succ a ih =>
    rw [succ_add, readGroup, ih]
    rfl

lemma flatten_readGroups (n quota groups p : Nat) (l : List Nat) :
    (readGroups n quota groups p l).flatten = (readGroup n (groups * quota) p l).1 := by
  induction groups generalizing p l with
  | zero => rw [zero_mul]; rfl
  | succ groups ih => rw [readGroups, flatten_cons, ih, succ_mul, add_comm, readGroup_add]

lemma count_flatten (hcount : ∀ w ∈ ws, w.count true = quota) :
    ws.flatten.count true = ws.length * quota := by
  rw [List.count_flatten, map_eq_replicate_iff.mpr hcount, sum_replicate, smul_eq_mul]

lemma Closed.append (hu : Closed u) (hv : Closed v) : Closed (u ++ v) := by
  rw [Closed, getLast?_append]
  cases hlast : v.getLast? with
  | none => exact hu
  | some step =>
    rw [Closed, hlast] at hv
    exact hv

lemma closed_flatten (hclosed : ∀ w ∈ ws, Closed w) : Closed ws.flatten := by
  induction ws with
  | nil => exact nofun
  | cons w ws ih =>
    rw [forall_mem_cons] at hclosed
    exact hclosed.1.append (ih hclosed.2)

/-- A run of passes does not go on into the next walk. -/
lemma not_infix_append (hclosed : Closed u) (hu : ¬ replicate n false <:+: u)
    (hv : ¬ replicate n false <:+: v) : ¬ replicate n false <:+: u ++ v := by
  rw [infix_append_iff, not_or, not_or]
  refine ⟨hu, hv, ?_⟩
  rintro ⟨t₁, t₂, heq, hsuffix, hhead⟩
  cases hlast : t₁.getLast? with
  | none =>
    rw [getLast?_eq_none_iff.mp hlast] at heq
    exact hv (heq ▸ hhead.isInfix)
  | some step =>
    have hmem : step ∈ replicate n false := by
      rw [heq]
      exact mem_append_left _ (mem_of_getLast? hlast)
    rw [eq_of_mem_replicate hmem] at hlast
    obtain ⟨u', rfl⟩ := hsuffix
    exact hclosed (by rw [getLast?_append, hlast]; rfl)

lemma not_infix_flatten (hn : 0 < n) (hws : ∀ w ∈ ws, Closed w ∧ ¬ replicate n false <:+: w) :
    ¬ replicate n false <:+: ws.flatten := by
  induction ws with
  | nil => simpa using hn.ne'
  | cons w ws ih =>
    rw [forall_mem_cons] at hws
    exact not_infix_append hws.1.1 hws.1.2 (ih hws.2)

/-- **Several groups.** The reader finds what each group took exactly if, over all groups, no
position is passed right after a lap in which all were taken. -/
theorem readGroups_eq_takenGroups_iff (hp : p < n) (hcount : ∀ w ∈ ws, w.count true = quota)
    (hws : ∀ w ∈ ws, Closed w ∧ ¬ replicate n false <:+: w) :
    readGroups n quota ws.length p (passed n p ws.flatten) = takenGroups n p ws ↔
      ¬ PassesAfterLap n ws.flatten := by
  rw [eq_iff_flatten_eq, map_length_readGroups, map_length_takenGroups_iff.mpr hcount,
    flatten_readGroups, flatten_takenGroups, ← count_flatten hcount]
  rw [and_iff_left rfl]
  exact readGroup_eq_taken_iff hp (closed_flatten fun w hw => (hws w hw).1)
    (not_infix_flatten (by omega) hws)

end Groups

/-! ## What a group may take -/

/-- A walk that takes what it may: `tryTake` is `none` where it may not, and gives the state
after it has. -/
inductive Steps {σ : Type} (tryTake : σ → Nat → Option σ) (n : Nat) :
    σ → Nat → List Bool → σ → Nat → Prop where
  | nil {s p} : Steps tryTake n s p [] s p
  | take {s p s₁ w s' p'} (h : tryTake s p = some s₁)
      (hrest : Steps tryTake n s₁ (next n p) w s' p') : Steps tryTake n s p (true :: w) s' p'
  | pass {s p w s' p'} (h : tryTake s p = none)
      (hrest : Steps tryTake n s (next n p) w s' p') : Steps tryTake n s p (false :: w) s' p'

/-- The walks of all groups, each of which takes `quota` positions. -/
inductive WalkAll {σ : Type} (tryTake : σ → Nat → Option σ) (n quota : Nat) :
    List σ → Nat → List (List Bool) → Prop where
  | nil {p} : WalkAll tryTake n quota [] p []
  | cons {s ss p w s' p' ws} (h : Steps tryTake n s p w s' p') (hcount : w.count true = quota)
      (hclosed : Closed w) (hrest : WalkAll tryTake n quota ss p' ws) :
      WalkAll tryTake n quota (s :: ss) p (w :: ws)

section Steps

variable {σ : Type} {tryTake : σ → Nat → Option σ} {n quota p p' : Nat} {s s' : σ}
  {ss : List σ} {w w' : List Bool} {ws ws' : List (List Bool)}

lemma Steps.exists_split {u v : List Bool} (h : Steps tryTake n s p (u ++ v) s' p') :
    ∃ s₁ p₁, Steps tryTake n s p u s₁ p₁ ∧ Steps tryTake n s₁ p₁ v s' p' := by
  induction u generalizing s p with
  | nil => exact ⟨s, p, .nil, h⟩
  | cons step u ih =>
    cases h with
    | take htake hrest =>
      obtain ⟨s₁, p₁, hu, hv⟩ := ih hrest
      exact ⟨s₁, p₁, .take htake hu, hv⟩
    | pass hpass hrest =>
      obtain ⟨s₁, p₁, hu, hv⟩ := ih hrest
      exact ⟨s₁, p₁, .pass hpass hu, hv⟩

lemma Steps.ending_eq (h : Steps tryTake n s p w s' p') : p' = ending n p w := by
  induction h with
  | nil => rfl
  | take _ _ ih => exact ih
  | pass _ _ ih => exact ih

lemma Steps.lt (h : Steps tryTake n s p w s' p') (hp : p < n) : p' < n := by
  induction h with
  | nil => exact hp
  | take _ _ ih => exact ih (next_lt hp)
  | pass _ _ ih => exact ih (next_lt hp)

/-- The positions of a run of passes may not be taken, and the state stays. -/
lemma Steps.passes {k : Nat} (hp : p < n) (h : Steps tryTake n s p (replicate k false) s' p') :
    s' = s ∧ ∀ j < k, tryTake s ((p + j) % n) = none := by
  induction k generalizing p with
  | zero =>
    cases h
    exact ⟨rfl, fun j hj => absurd hj (not_lt_zero j)⟩
  | succ k ih =>
    cases h with
    | pass hpass hrest =>
      obtain ⟨hs, hnone⟩ := ih (next_lt hp) hrest
      refine ⟨hs, fun j hj => ?_⟩
      cases j with
      | zero => rw [add_zero, mod_eq_of_lt hp, hpass]
      | succ j =>
        rw [← next_add_mod hp]
        exact hnone j (lt_of_succ_lt_succ hj)

lemma Steps.stuck (hstuck : ∀ q < n, tryTake s q = none) (hp : p < n)
    (h : Steps tryTake n s p w s' p') : w = replicate w.length false := by
  induction h with
  | nil => rfl
  | take htake _ _ =>
    rw [hstuck _ hp] at htake
    cases htake
  | pass _ _ ih => rw [length_cons, replicate_succ, ← ih hstuck (next_lt hp)]

/-- A walk that ends by taking never passes a full lap: it could take nothing more. -/
lemma Steps.not_infix_replicate_false (h : Steps tryTake n s p w s' p') (hp : p < n)
    (hclosed : Closed w) : ¬ replicate n false <:+: w := by
  rintro ⟨u, v, rfl⟩
  obtain ⟨s₂, p₂, hfirst, hv⟩ := h.exists_split
  obtain ⟨s₁, p₁, hu, hlap⟩ := hfirst.exists_split
  obtain ⟨rfl, hnone⟩ := hlap.passes (hu.lt hp)
  have hstuck : ∀ q < n, tryTake s₂ q = none := by
    intro q hq
    have hp₁ := hu.lt hp
    have hmod : (p₁ + (n - p₁ + q) % n) % n = q := by
      rw [add_mod_mod, show p₁ + (n - p₁ + q) = q + n by omega, add_mod_right, mod_eq_of_lt hq]
    rw [← hmod]
    exact hnone _ (mod_lt _ (by omega))
  have hv' := hv.stuck hstuck (hfirst.lt hp)
  rw [hv', append_assoc, ← replicate_add, Closed, getLast?_append,
    getLast?_replicate, if_neg (by omega)] at hclosed
  exact hclosed rfl

lemma WalkAll.props (h : WalkAll tryTake n quota ss p ws) (hp : p < n) :
    ws.length = ss.length ∧ (∀ w ∈ ws, w.count true = quota) ∧
      ∀ w ∈ ws, Closed w ∧ ¬ replicate n false <:+: w := by
  induction h with
  | nil => simp
  | cons h hcount hclosed _ ih =>
    obtain ⟨hlength, hcounts, hclosedAll⟩ := ih (h.lt hp)
    refine ⟨congrArg succ hlength, forall_mem_cons.mpr ⟨hcount, hcounts⟩,
      forall_mem_cons.mpr ⟨⟨hclosed, h.not_infix_replicate_false hp hclosed⟩, hclosedAll⟩⟩

lemma Closed.eq_nil_of_count (h : Closed w) (hcount : w.count true = 0) : w = [] := by
  cases w with
  | nil => rfl
  | cons step w =>
    cases step with
    | false => exact absurd hcount h.count_ne_zero
    | true =>
      rw [count_cons_self] at hcount
      cases hcount

lemma Steps.unique {s₁ s₂ : σ} {p₁ p₂ : Nat} (h : Steps tryTake n s p w s₁ p₁)
    (h' : Steps tryTake n s p w' s₂ p₂) (hclosed : Closed w) (hclosed' : Closed w')
    (hcount : w.count true = w'.count true) : w = w' := by
  induction h generalizing w' with
  | nil => exact (hclosed'.eq_nil_of_count hcount.symm).symm
  | take htake _ ih =>
    cases h' with
    | nil => exact hclosed.eq_nil_of_count hcount
    | take htake' hrest' =>
      rw [htake] at htake'
      cases htake'
      rw [count_cons_self, count_cons_self, succ_inj] at hcount
      rw [ih hrest' hclosed.tail hclosed'.tail hcount]
    | pass hpass' _ =>
      rw [htake] at hpass'
      cases hpass'
  | pass hpass _ ih =>
    cases h' with
    | nil => exact hclosed.eq_nil_of_count hcount
    | take htake' _ =>
      rw [hpass] at htake'
      cases htake'
    | pass _ hrest' => rw [ih hrest' hclosed.tail hclosed'.tail hcount]

/-- The walk of all groups is determined by what each may take. -/
lemma WalkAll.unique (h : WalkAll tryTake n quota ss p ws)
    (h' : WalkAll tryTake n quota ss p ws') : ws = ws' := by
  induction h generalizing ws' with
  | nil =>
    cases h'
    rfl
  | cons h hcount hclosed _ ih =>
    cases h' with
    | cons h₁ hcount₁ hclosed₁ hrest₁ =>
      obtain rfl := h.unique h₁ hclosed hclosed₁ (hcount.trans hcount₁.symm)
      rw [ih (by rw [h.ending_eq, ← h₁.ending_eq]; exact hrest₁)]

end Steps

end HootChain.Foundation.CyclicWalk

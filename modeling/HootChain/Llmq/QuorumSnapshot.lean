import HootChain.Foundation.RowMajor
import HootChain.Llmq.QuorumRotation

/-!
# Snapshots of Rotated Quorums (`llmq/utils.cpp`)

The loop of the builder is a walk round the combined list, in which a masternode is taken or
skipped, and its skip list says where the walk has skipped. The decoder goes by the skip list
until each quorum has a full quarter.
-/

namespace HootChain.Llmq.Rotation

open Evo Primitives List Bool Nat CDeterministicMN FillState CDeterministicMNList
open Foundation.CyclicWalk

/-! ## Skip lists -/

section SkipLists

variable (first : Nat) (l : List Nat)

/-- The first index, which the others are relative to; zero does not count. -/
def firstFrom : Nat := l.foldl (fun first idx => if first = 0 then idx else first) first

/-- The skip list for the indexes that were skipped. -/
def encodeSkips : Nat → List Nat → List Int
  | _, [] => []
  | first, idx :: rest =>
    if first = 0 then (idx : Int) :: encodeSkips idx rest
    else ((idx : Int) - first) :: encodeSkips first rest

lemma firstFrom_cons (idx : Nat) (l : List Nat) :
    firstFrom first (idx :: l) = firstFrom (if first = 0 then idx else first) l := rfl

lemma encodeSkips_append_singleton (idx : Nat) :
    encodeSkips first (l ++ [idx]) = encodeSkips first l ++
      [if firstFrom first l = 0 then (idx : Int) else (idx : Int) - firstFrom first l] := by
  induction l generalizing first with
  | nil => by_cases hfirst : first = 0 <;> simp [encodeSkips, firstFrom, hfirst]
  | cons s l ih => by_cases hfirst : first = 0 <;> simp [encodeSkips, firstFrom_cons, hfirst, ih]

/-- The skip list gives the skipped indexes back. -/
lemma processSkipList_encodeSkips :
    processSkipList first (encodeSkips first l) = l.map fun (idx : Nat) => (idx : Int) := by
  induction l generalizing first with
  | nil => rfl
  | cons idx l ih =>
    rw [encodeSkips, map_cons]
    split
    case isTrue hfirst => rw [hfirst, processSkipList, if_pos cast_zero, ih]
    case isFalse hfirst =>
      rw [processSkipList, if_neg (cast_ne_zero.mpr hfirst), ih, add_sub_cancel]

end SkipLists

/-! ## One round of the builder -/

section Rounds

variable {combined : List CDeterministicMN} {st st' : FillState} {used : CDeterministicMNList}
  {skipped : List Nat} {size usedMNsCount init fuel : Nat}

/-- The skip list says which indexes were skipped. -/
structure FillState.Recorded (st : FillState) (skipped : List Nat) : Prop where
  skipList : st.skipList = encodeSkips 0 skipped
  first : st.firstSkippedIndex = firstFrom 0 skipped

/-- The masternodes at the given positions. -/
def membersAt {α : Type} (combined : List α) (positions : List Nat) : List α :=
  positions.filterMap (combined[·]?)

lemma membersAt_cons {α : Type} (combined : List α) (p : Nat) (positions : List Nat) :
    membersAt combined (p :: positions) = combined[p]?.toList ++ membersAt combined positions := by
  rw [membersAt, filterMap_cons]
  cases combined[p]? <;> rfl

lemma visit_of_some (htake : takeMN combined st.used st.idx = some used) :
    st.visit combined = { st with
      used := used, members := st.members ++ combined[st.idx]?.toList, updated := true
      idx := next combined.length st.idx } := by
  rw [visit, htake]

lemma visit_of_none (hpass : takeMN combined st.used st.idx = none) :
    st.visit combined = { st.skip with idx := next combined.length st.idx } := by
  rw [visit, hpass]

lemma FillState.skip_eq (st : FillState) :
    st.skip.members = st.members ∧ st.skip.used = st.used ∧ st.skip.updated = st.updated := by
  rw [skip]
  split <;> exact ⟨rfl, rfl, rfl⟩

lemma FillState.Recorded.skip (h : st.Recorded skipped) :
    st.skip.Recorded (skipped ++ [st.idx]) := by
  have hfirst : firstFrom 0 (skipped ++ [st.idx]) =
      if st.firstSkippedIndex = 0 then st.idx else st.firstSkippedIndex := by
    rw [firstFrom, foldl_append, h.first]
    rfl
  rw [FillState.skip]
  split
  case isTrue hzero =>
    refine ⟨?_, ?_⟩
    · rw [encodeSkips_append_singleton, ← h.first, if_pos hzero, ← h.skipList]
    · rw [hfirst, if_pos hzero]
  case isFalse hzero =>
    refine ⟨?_, ?_⟩
    · rw [encodeSkips_append_singleton, ← h.first, if_neg hzero, ← h.skipList]
    · rw [hfirst, if_neg hzero]

lemma lt_of_takeMN {idx : Nat} (htake : takeMN combined used idx ≠ none) :
    idx < combined.length := by
  by_contra hlt
  rw [takeMN, getElem?_eq_none (not_lt.mp hlt)] at htake
  exact htake rfl

lemma length_visit_of_some (htake : takeMN combined st.used st.idx = some used) :
    (st.visit combined).members.length = st.members.length + 1 := by
  have hlt : st.idx < combined.length := lt_of_takeMN (by rw [htake]; exact Option.some_ne_none _)
  rw [visit_of_some htake, getElem?_eq_getElem hlt]
  simp

/-- The condition of the loop. -/
def Wants (combined : List CDeterministicMN) (size usedMNsCount : Nat) (st : FillState) : Prop :=
  st.members.length < size ∧ usedMNsCount + st.members.length < combined.length

/-! ### The loop ends -/

/-- The rounds until the index is back at `init`. -/
def untilLap (n idx init : Nat) : Nat := if idx < init then init - idx else n + init - idx

lemma untilLap_next {n idx init : Nat} (hidx : idx < n) (hinit : init < n) :
    untilLap n idx init = if next n idx = init then 1 else untilLap n (next n idx) init + 1 := by
  unfold untilLap Foundation.CyclicWalk.next
  split_ifs <;> omega

/-- The rounds that are left at most: a lap for each member that is missing, the rest of this
lap, and one more if this lap has a new member already. -/
def roundsLeft (n size init : Nat) (st : FillState) : Nat :=
  n * (size - st.members.length) + untilLap n st.idx init + if st.updated then n else 0

lemma FillState.Recorded.visit_of_some (h : st.Recorded skipped)
    (htake : takeMN combined st.used st.idx = some used) (updated : Bool) :
    ({ st.visit combined with updated := updated } : FillState).Recorded skipped := by
  rw [Rotation.visit_of_some htake]
  exact ⟨h.skipList, h.first⟩

lemma FillState.Recorded.visit_of_none (h : st.Recorded skipped)
    (hpass : takeMN combined st.used st.idx = none) (updated : Bool) :
    ({ st.visit combined with updated := updated } : FillState).Recorded (skipped ++ [st.idx]) := by
  rw [Rotation.visit_of_none hpass]
  exact ⟨h.skip.skipList, h.skip.first⟩

variable (hwants : Wants combined size usedMNsCount st)

include hwants

lemma roundsLeft_visit (hidx : st.idx < combined.length) (hinit : init < combined.length) :
    let st' := st.visit combined
    if st'.idx = init then
      st'.updated = true →
        roundsLeft combined.length size init { st' with updated := false } <
          roundsLeft combined.length size init st
    else roundsLeft combined.length size init st' < roundsLeft combined.length size init st := by
  have hlap := untilLap_next hidx hinit
  have hself : untilLap combined.length init init = combined.length := by simp [untilLap]
  cases htake : takeMN combined st.used st.idx with
  | none =>
    rw [visit_of_none htake]
    obtain ⟨hmembers, -, hupdated⟩ := st.skip_eq
    simp only [roundsLeft, hmembers, hupdated]
    split
    case isTrue hinit' =>
      intro hup
      rw [hlap, if_pos hinit', hinit', if_pos hup]
      simp only [false_eq_true, if_false]
      omega
    case isFalse hinit' =>
      rw [hlap, if_neg hinit']
      omega
  | some used =>
    have hlength := length_visit_of_some htake
    rw [visit_of_some htake] at hlength ⊢
    -- the lap that the new member allows is one of those counted before
    have hmul : combined.length * (size - st.members.length) =
        combined.length * (size - (st.members.length + 1)) + combined.length := by
      obtain ⟨k, hk⟩ := Nat.exists_eq_add_of_lt hwants.1
      rw [hk, show st.members.length + k + 1 - st.members.length = k + 1 by omega,
        show st.members.length + k + 1 - (st.members.length + 1) = k by omega, mul_succ]
    simp only [roundsLeft] at hlength ⊢
    rw [hlength, hlap]
    split
    case isTrue hinit' =>
      rw [hinit']
      simp only [false_eq_true, if_false]
      omega
    case isFalse hinit' =>
      simp only [if_true]
      omega

omit hwants in
/-- **The loop ends.** It does not need more rounds than that. -/
theorem fillQuarter_ne_outOfFuel (hidx : st.idx < combined.length) (hinit : init < combined.length)
    (hfuel : roundsLeft combined.length size init st ≤ fuel) :
    fillQuarter combined size usedMNsCount init fuel st ≠ .outOfFuel := by
  induction fuel generalizing st with
  | zero =>
    -- a full lap is left at least
    have hpos : 0 < untilLap combined.length st.idx init := by
      unfold untilLap
      split <;> omega
    unfold roundsLeft at hfuel
    omega
  | succ fuel ih =>
    rw [fillQuarter]
    split
    case isFalse => exact nofun
    case isTrue hwants =>
      have hrounds := roundsLeft_visit hwants hidx hinit
      have hidx' : (st.visit combined).idx < combined.length := next_lt hidx
      dsimp only at hrounds ⊢
      split
      case isTrue hlap =>
        rw [if_pos hlap] at hrounds
        split
        case isTrue hupdated => exact ih hidx' (le_of_lt_succ ((hrounds hupdated).trans_le hfuel))
        case isFalse => exact nofun
      case isFalse hlap =>
        rw [if_neg hlap] at hrounds
        exact ih hidx' (le_of_lt_succ (hrounds.trans_le hfuel))

/-! ### What the loop has walked -/

/-- A walk of one quorum, from one state of the loop to another. -/
structure Walked (combined : List CDeterministicMN) (size usedMNsCount : Nat) (st : FillState)
    (skipped : List Nat) (w : List Bool) (st' : FillState) : Prop where
  steps : Steps (takeMN combined) combined.length st.used st.idx w st'.used st'.idx
  members : st'.members = st.members ++ membersAt combined (taken combined.length st.idx w)
  length : st'.members.length = st.members.length + w.count true
  recorded : st'.Recorded (skipped ++ passed combined.length st.idx w)
  closed : Closed w
  stops : ¬ Wants combined size usedMNsCount st'
  /-- The last member was wanted. -/
  wanted : w ≠ [] → st'.members.length ≤ size ∧ usedMNsCount + st'.members.length ≤ combined.length

omit hwants in
lemma Walked.nil (hrecorded : st.Recorded skipped) (hstops : ¬ Wants combined size usedMNsCount st) :
    Walked combined size usedMNsCount st skipped [] st where
  steps := .nil
  members := (append_nil _).symm
  length := rfl
  recorded := by
    rw [passed, visited, append_nil]
    exact hrecorded
  closed := nofun
  stops := hstops
  wanted := fun h => absurd rfl h

/-- A first round in which the masternode is taken. -/
lemma Walked.take {w : List Bool}
    (htake : takeMN combined st.used st.idx = some used) {updated : Bool}
    (h : Walked combined size usedMNsCount { st.visit combined with updated := updated } skipped w
      st') : Walked combined size usedMNsCount st skipped (true :: w) st' := by
  have hlength := length_visit_of_some htake
  obtain ⟨hsteps, hmembers, hlen, hrecorded, hclosed, hstops, hwanted⟩ := h
  rw [visit_of_some htake] at hsteps hmembers hlen hrecorded hlength
  dsimp only at hsteps hmembers hlen hrecorded hlength
  refine ⟨.take htake hsteps, ?_, ?_, ?_, ?_, hstops, fun _ => ?_⟩
  · rw [hmembers, taken, visited, if_pos rfl, membersAt_cons, append_assoc]
  · rw [count_cons_self]
    omega
  · exact hrecorded
  · cases w with
    | nil => exact fun h => by cases h
    | cons step w => exact hclosed
  · cases w with
    | nil =>
      rw [hlen, hlength]
      exact ⟨hwants.1, hwants.2⟩
    | cons step w => exact hwanted (cons_ne_nil step w)

/-- A first round in which the masternode is skipped. -/
lemma Walked.pass {w : List Bool} (hpass : takeMN combined st.used st.idx = none) {updated : Bool}
    (h : Walked combined size usedMNsCount { st.visit combined with updated := updated }
      (skipped ++ [st.idx]) w st') :
    Walked combined size usedMNsCount st skipped (false :: w) st' := by
  obtain ⟨hsteps, hmembers, hlen, hrecorded, hclosed, hstops, hwanted⟩ := h
  obtain ⟨hskip, hused, -⟩ := st.skip_eq
  rw [visit_of_none hpass] at hsteps hmembers hlen hrecorded
  rw [hused] at hsteps
  rw [hskip] at hmembers hlen
  -- the loop goes on after this round, as its condition is as before
  have hne : w ≠ [] := by
    rintro rfl
    rw [Wants, hlen] at hstops
    exact hstops hwants
  refine ⟨.pass hpass hsteps, ?_, ?_, ?_, ?_, hstops, fun _ => hwanted hne⟩
  · rw [hmembers, taken, visited, if_neg (by decide)]
  · rw [hlen, count_cons_of_ne (by decide)]
  · rw [passed, visited, if_pos rfl, append_cons]
    exact hrecorded
  · obtain ⟨step, w', rfl⟩ := exists_cons_of_ne_nil hne
    exact hclosed

/-- One round is a step of the walk, whatever becomes of the flag. -/
lemma exists_walked_of_visit (hrecorded : st.Recorded skipped) (updated : Bool)
    (hrest : ∀ skipped,
      ({ st.visit combined with updated := updated } : FillState).Recorded skipped →
      ∃ w, Walked combined size usedMNsCount { st.visit combined with updated := updated } skipped w
        st') : ∃ w, Walked combined size usedMNsCount st skipped w st' := by
  cases htake : takeMN combined st.used st.idx with
  | none =>
    obtain ⟨w, hw⟩ := hrest _ (hrecorded.visit_of_none htake updated)
    exact ⟨false :: w, .pass hwants htake hw⟩
  | some used =>
    obtain ⟨w, hw⟩ := hrest _ (hrecorded.visit_of_some htake updated)
    exact ⟨true :: w, .take hwants htake hw⟩

omit hwants in
lemma fillQuarter_spec (hrecorded : st.Recorded skipped)
    (hfilled : fillQuarter combined size usedMNsCount init fuel st = .filled st') :
    ∃ w, Walked combined size usedMNsCount st skipped w st' := by
  induction fuel generalizing st skipped with
  | zero =>
    rw [fillQuarter] at hfilled
    split at hfilled
    · cases hfilled
    · cases hfilled
      exact ⟨[], .nil hrecorded ‹_›⟩
  | succ fuel ih =>
    rw [fillQuarter] at hfilled
    split at hfilled
    case isFalse hstops =>
      cases hfilled
      exact ⟨[], .nil hrecorded hstops⟩
    case isTrue hwants =>
      dsimp only at hfilled
      split at hfilled
      · split at hfilled
        · exact exists_walked_of_visit hwants hrecorded false fun _ h => ih h hfilled
        · cases hfilled
      · exact exists_walked_of_visit hwants hrecorded _ fun _ h => ih h hfilled

end Rounds

/-! ## All quorums -/

section Quorums

variable {combined : List CDeterministicMN} {size idx first : Nat} {skipped : List Nat}
  {skipList skipList' : List Int} {lists : List CDeterministicMNList} {ws : List (List Bool)}
  {quarters : List (List CDeterministicMN)}

/-- The walks of all quorums: each ends when the quarter is full, or when the quorum has used
as many masternodes as there are. -/
inductive FilledWalks (combined : List CDeterministicMN) (size : Nat) :
    List CDeterministicMNList → Nat → List (List Bool) → Prop where
  | nil {p} : FilledWalks combined size [] p []
  | cons {used lists p w used' p' ws}
      (steps : Steps (takeMN combined) combined.length used p w used' p') (closed : Closed w)
      (stops : ¬ (w.count true < size ∧ used.getAllMNsCount + w.count true < combined.length))
      (wanted : w ≠ [] → w.count true ≤ size ∧ used.getAllMNsCount + w.count true ≤ combined.length)
      (rest : FilledWalks combined size lists p' ws) :
      FilledWalks combined size (used :: lists) p (w :: ws)

/-- **The builder.** The quarters are what the walks have taken, and the skip list what they
have skipped. -/
theorem fillQuarters_spec (hlist : skipList = encodeSkips 0 skipped)
    (hfirst : first = firstFrom 0 skipped)
    (hbuilt : fillQuarters combined size lists idx skipList first = .built quarters skipList') :
    ∃ ws, FilledWalks combined size lists idx ws ∧
      quarters = (takenGroups combined.length idx ws).map (membersAt combined) ∧
      skipList' = encodeSkips 0 (skipped ++ passed combined.length idx ws.flatten) := by
  induction lists generalizing idx skipList first skipped quarters with
  | nil =>
    cases hbuilt
    refine ⟨[], .nil, rfl, ?_⟩
    rw [hlist, flatten_nil, passed, visited, append_nil]
  | cons used lists ih =>
    rw [fillQuarters] at hbuilt
    split at hbuilt
    case h_1 => cases hbuilt
    case h_2 => cases hbuilt
    case h_3 st hfilled =>
      obtain ⟨w, hw⟩ := fillQuarter_spec ⟨hlist, hfirst⟩ hfilled
      split at hbuilt
      case h_2 result hresult => exact absurd hbuilt fun heq => hresult _ _ heq
      case h_1 quarters' skipList'' hrest =>
        cases hbuilt
        obtain ⟨ws, hwalks, rfl, hlist'⟩ := ih hw.recorded.skipList hw.recorded.first hrest
        have hlength : st.members.length = w.count true := by
          rw [hw.length]
          exact zero_add _
        refine ⟨w :: ws, .cons hw.steps hw.closed ?_ ?_ hwalks, ?_, ?_⟩
        · have hstops := hw.stops
          rw [Wants, hlength] at hstops
          exact hstops
        · intro hne
          have hwanted := hw.wanted hne
          rw [hlength] at hwanted
          exact hwanted
        · have hmembers := hw.members
          rw [takenGroups, ← hw.steps.ending_eq, hmembers]
          rfl
        · rw [hlist', flatten_cons, append_assoc, passed, visited_append, hw.steps.ending_eq]
          rfl

section

variable (h : FilledWalks combined size lists idx ws)

include h

lemma FilledWalks.length_eq : ws.length = lists.length := by
  induction h with
  | nil => rfl
  | cons _ _ _ _ _ ih => exact congrArg succ ih

/-- All quarters are full exactly if every quorum has a quarter of masternodes that it does not
use. -/
lemma FilledWalks.full_iff :
    (∀ w ∈ ws, w.count true = size) ↔
      ∀ used ∈ lists, size ≤ combined.length - used.getAllMNsCount := by
  induction h with
  | nil => simp
  | @cons used lists p w used' p' ws _ _ stops wanted _ ih =>
    rw [forall_mem_cons, forall_mem_cons, ih]
    refine and_congr_left fun _ => ?_
    by_cases hw : w = []
    · subst hw
      rw [count_nil] at stops ⊢
      omega
    · obtain ⟨hsize, hcount⟩ := wanted hw
      omega

lemma FilledWalks.walkAll (hfull : ∀ w ∈ ws, w.count true = size) :
    WalkAll (takeMN combined) combined.length size lists idx ws := by
  induction h with
  | nil => exact .nil
  | cons steps closed _ _ _ ih =>
    rw [forall_mem_cons] at hfull
    exact .cons steps hfull.1 closed (ih hfull.2)

end

lemma fillQuarters_ne_outOfFuel (hidx : idx < combined.length ∨ combined = [])
    (hlist : skipList = encodeSkips 0 skipped) (hfirst : first = firstFrom 0 skipped) :
    fillQuarters combined size lists idx skipList first ≠ .outOfFuel := by
  induction lists generalizing idx skipList first skipped with
  | nil => exact nofun
  | cons used lists ih =>
    have hfill : fillQuarter combined size used.getAllMNsCount idx (fillFuel combined size)
        { used, idx, skipList, firstSkippedIndex := first } ≠ .outOfFuel := by
      rcases hidx with hidx | rfl
      · apply fillQuarter_ne_outOfFuel hidx hidx
        simp only [roundsLeft, untilLap, fillFuel, lt_irrefl, if_false, length_nil,
          false_eq_true, Nat.sub_zero, Nat.add_sub_cancel]
        rw [Nat.succ_mul, Nat.mul_comm]
        exact le_rfl
      · rw [fillFuel, length_nil, Nat.mul_zero, fillQuarter]
        simp
    rw [fillQuarters]
    split
    case h_1 heq => exact absurd heq hfill
    case h_2 => exact nofun
    case h_3 st hfilled =>
      obtain ⟨w, hw⟩ := fillQuarter_spec ⟨hlist, hfirst⟩ hfilled
      have hrest := ih (hidx.imp_left fun hlt => hw.steps.lt hlt) hw.recorded.skipList
        hw.recorded.first
      split
      · exact nofun
      · exact hrest

/-- **The builder ends**, whatever the lists. -/
theorem buildNewQuorumQuarterMembers_isSome (env : RotationEnv) (params : LLMQParams)
    (cycle : QuorumCycle) (prev : PreviousQuorumQuarters) :
    (buildNewQuorumQuarterMembers env params cycle prev).isSome = true := by
  have hfuel : fillQuarters (sortedCombinedMnsList env params cycle prev) (quarterSize params)
      ((range params.signingActiveQuorumCount).map (mnsUsedAtHIndexed env cycle prev)) 0 [] 0 ≠
        .outOfFuel := by
    apply fillQuarters_ne_outOfFuel _ (show [] = encodeSkips 0 [] from rfl) rfl
    exact (eq_zero_or_pos _).symm.imp_right length_eq_zero_iff.mp
  rw [buildNewQuorumQuarterMembers]
  split
  · rfl
  dsimp only
  split
  · rfl
  split
  · rfl
  · rfl
  case h_3 hout => exact absurd hout hfuel

/-! ### What the loops read and take -/

/-- The states in which the loops for the quorums start, up to one that fails. -/
def starts (combined : List CDeterministicMN) (size : Nat) :
    List CDeterministicMNList → Nat → List Int → Nat → List FillState
  | [], _, _, _ => []
  | used :: rest, idx, skipList, firstSkippedIndex =>
    let st : FillState := { used, idx, skipList, firstSkippedIndex }
    st :: match fillQuarter combined size used.getAllMNsCount idx (fillFuel combined size) st with
      | .filled st' => starts combined size rest st'.idx st'.skipList st'.firstSkippedIndex
      | _ => []

/-- The masternodes taken are different and used, and the index is one of the list. -/
structure FillState.Safe (combined : List CDeterministicMN) (st : FillState) : Prop where
  idx : 0 < combined.length → st.idx < combined.length
  nodup : (st.members.map proTxHash).Nodup
  used : ∀ mn ∈ st.members, st.used.hasMN mn.proTxHash = true

lemma takeMN_eq_some {used used' : CDeterministicMNList}
    (htake : takeMN combined used idx = some used') :
    ∃ mn, combined[idx]? = some mn ∧ used.hasMN mn.proTxHash = false ∧
      ∀ h, used'.hasMN h = (decide (h = mn.proTxHash) || used.hasMN h) := by
  obtain ⟨mn, hmn, htake⟩ := Option.bind_eq_some_iff.mp htake
  split at htake
  · cases htake
  case isFalse hnot =>
    refine ⟨mn, hmn, not_eq_true _ ▸ hnot, fun h => ?_⟩
    cases hrun : used.addMN mn true with
    | error e => simp [hrun, Except.toOption] at htake
    | ok l =>
      obtain rfl : l = used' := by simpa [hrun, Except.toOption] using htake
      rw [hasMN, getMN_addMN hrun]
      by_cases heq : h = mn.proTxHash
      · simp [heq]
      · simp [heq, hasMN]

lemma FillState.Safe.visit {st : FillState} (h : st.Safe combined) :
    (st.visit combined).Safe combined := by
  have hidx : 0 < combined.length → (st.visit combined).idx < combined.length :=
    fun hpos => next_lt (h.idx hpos)
  cases htake : takeMN combined st.used st.idx with
  | none =>
    obtain ⟨hmembers, hused, -⟩ := st.skip_eq
    rw [visit_of_none htake] at hidx ⊢
    exact ⟨hidx, hmembers ▸ h.nodup, by simpa only [hmembers, hused] using h.used⟩
  | some used =>
    obtain ⟨mn, hmn, hnew, hused⟩ := takeMN_eq_some htake
    rw [visit_of_some htake, hmn] at hidx ⊢
    refine ⟨hidx, ?_, fun mn' hmem => ?_⟩
    · rw [map_append]
      refine h.nodup.append (nodup_singleton _) fun hash hmem hsame => ?_
      obtain ⟨mn', hmn', rfl⟩ := mem_map.mp hmem
      have hold := h.used mn' hmn'
      rw [mem_singleton.mp hsame, hnew] at hold
      cases hold
    · rw [hused, or_eq_true, decide_eq_true_eq]
      rcases mem_append.mp hmem with hmem | hmem
      · exact .inr (h.used mn' hmem)
      · exact .inl (congrArg _ (mem_singleton.mp hmem))

lemma safe_starts (hidx : 0 < combined.length → idx < combined.length)
    (hlist : skipList = encodeSkips 0 skipped) (hfirst : first = firstFrom 0 skipped) :
    ∀ st ∈ starts combined size lists idx skipList first, st.Safe combined := by
  induction lists generalizing idx skipList first skipped with
  | nil => exact nofun
  | cons used lists ih =>
    refine forall_mem_cons.mpr ⟨⟨hidx, nodup_nil, nofun⟩, ?_⟩
    split
    case h_1 st' hfilled =>
      obtain ⟨w, hw⟩ := fillQuarter_spec ⟨hlist, hfirst⟩ hfilled
      exact ih (fun hpos => hw.steps.lt (hidx hpos)) hw.recorded.skipList hw.recorded.first
    case h_2 => exact nofun

/-- **The loops are safe**, whatever the list, the size and what the quorums use already. They
end; and after any number of rounds for a quorum, the next one reads no index outside the list,
and no masternode has been taken twice. -/
theorem fillQuarters_safe (combined : List CDeterministicMN) (size : Nat)
    (lists : List CDeterministicMNList) :
    fillQuarters combined size lists 0 [] 0 ≠ .outOfFuel ∧
      ∀ st ∈ starts combined size lists 0 [] 0, ∀ rounds : Nat,
        let st' := (visit combined)^[rounds] st
        (Wants combined size st.used.getAllMNsCount st' → st'.idx < combined.length) ∧
          (st'.members.map proTxHash).Nodup := by
  have hnil : [] = encodeSkips 0 [] := rfl
  refine ⟨fillQuarters_ne_outOfFuel ?_ hnil rfl, fun st hst rounds => ?_⟩
  · exact (eq_zero_or_pos _).symm.imp_right length_eq_zero_iff.mp
  · have hsafe : ((visit combined)^[rounds] st).Safe combined := by
      induction rounds with
      | zero => exact safe_starts id hnil rfl st hst
      | succ rounds ih =>
        rw [Function.iterate_succ_apply']
        exact ih.visit
    exact ⟨fun hwants => hsafe.idx (zero_lt_of_lt hwants.2), hsafe.nodup⟩

end Quorums

/-! ## The decoder -/

section Decoder

variable {α : Type} {combined : List CDeterministicMN}

lemma skipEntries_cast (n idx : Nat) (l : List Nat) :
    skipEntries n idx (l.map fun (s : Nat) => (s : Int)) =
      ((passListed n idx l).1, (passListed n idx l).2.map fun (s : Nat) => (s : Int)) := by
  induction l generalizing idx with
  | nil => rfl
  | cons s l ih =>
    rw [map_cons, skipEntries, passListed]
    by_cases heq : idx = s
    · rw [if_pos (congrArg Nat.cast heq), if_pos heq, ih]
    · rw [if_neg (fun h => heq (cast_injective h)), if_neg heq]
      rfl

lemma decodeQuarter_cast (size idx : Nat) (l : List Nat) :
    decodeQuarter combined size idx (l.map fun (s : Nat) => (s : Int)) =
      (membersAt combined (readGroup combined.length size idx l).1,
        (readGroup combined.length size idx l).2.1,
        (readGroup combined.length size idx l).2.2.map fun (s : Nat) => (s : Int)) := by
  induction size generalizing idx l with
  | zero => rfl
  | succ size ih =>
    rw [decodeQuarter, skipEntries_cast]
    simp only [ih]
    rw [readGroup]
    simp [membersAt_cons]

lemma decodeQuarters_cast (size numQuorums idx : Nat) (l : List Nat) :
    decodeQuarters combined size numQuorums idx (l.map fun (s : Nat) => (s : Int)) =
      (readGroups combined.length size numQuorums idx l).map (membersAt combined) := by
  induction numQuorums generalizing idx l with
  | zero => rfl
  | succ numQuorums ih =>
    rw [decodeQuarters, decodeQuarter_cast]
    simp only [ih]
    rw [readGroups, map_cons]

lemma map_membersAt {β : Type} (f : α → β) (l : List α) (positions : List Nat) :
    (membersAt l positions).map f = membersAt (l.map f) positions := by
  rw [membersAt, map_filterMap]
  congr 1
  funext p
  rw [getElem?_map]

lemma map_some_membersAt {l : List α} {positions : List Nat}
    (hlt : ∀ p ∈ positions, p < l.length) :
    (membersAt l positions).map some = positions.map (l[·]?) := by
  unfold membersAt
  induction positions with
  | nil => rfl
  | cons p positions ih => simp_all

lemma membersAt_inj {l : List α} (hnodup : l.Nodup) {positions positions' : List Nat}
    (hlt : ∀ p ∈ positions, p < l.length) (hlt' : ∀ p ∈ positions', p < l.length)
    (h : membersAt l positions = membersAt l positions') : positions = positions' := by
  refine Foundation.eq_of_map_eq (fun p hp p' _ => (getElem?_inj (hlt p hp) hnodup).mp) ?_
  rw [← map_some_membersAt hlt, h, map_some_membersAt hlt']

lemma map_membersAt_inj {l : List α} (hnodup : l.Nodup) {groups groups' : List (List Nat)}
    (hlt : ∀ p ∈ groups.flatten, p < l.length) (hlt' : ∀ p ∈ groups'.flatten, p < l.length) :
    groups.map (membersAt l) = groups'.map (membersAt l) ↔ groups = groups' := by
  refine ⟨Foundation.eq_of_map_eq fun g hg g' hg' => membersAt_inj hnodup ?_ ?_, fun h => by rw [h]⟩
  · exact fun p hp => hlt p (mem_flatten_of_mem hg hp)
  · exact fun p hp => hlt' p (mem_flatten_of_mem hg' hp)

end Decoder

/-! ## Decoding a snapshot -/

section Decoding

variable {env : RotationEnv} {params : LLMQParams} {cycle : QuorumCycle}
  {prev : PreviousQuorumQuarters} {quarters : List (List CDeterministicMN)}
  {snapshot : CQuorumSnapshot}

section

variable (env : RotationEnv) (params : LLMQParams) (cycle : QuorumCycle)
  (prev : PreviousQuorumQuarters)

/-- What each quorum uses when the walk begins. -/
def usedLists : List CDeterministicMNList :=
  (range params.signingActiveQuorumCount).map (mnsUsedAtHIndexed env cycle prev)

def memberHashes (quarters : List (List CDeterministicMN)) : List (List Uint256) :=
  quarters.map fun quarter => quarter.map proTxHash

/-- The quorums go round the combined list without a skip right after a lap without one. -/
def NeverSkipsAfterLap : Prop :=
  let combined := sortedCombinedMnsList env params cycle prev
  ∀ ws, WalkAll (takeMN combined) combined.length (quarterSize params)
    (usedLists env params cycle prev) 0 ws → ¬ PassesAfterLap combined.length ws.flatten

/-- Every quorum has a quarter of masternodes that were not in its last three quarters. -/
def HaveFullQuarters : Prop :=
  ∀ used ∈ usedLists env params cycle prev,
    quarterSize params ≤ (sortedCombinedMnsList env params cycle prev).length - used.getAllMNsCount

end

/-- What is known when a snapshot has been stored. -/
lemma stored_spec
    (hbuild : buildNewQuorumQuarterMembers env params cycle prev = some (quarters, some snapshot)) :
    isCycleBase params cycle = true ∧
      ∃ skipList, fillQuarters (sortedCombinedMnsList env params cycle prev) (quarterSize params)
          (usedLists env params cycle prev) 0 [] 0 = .built quarters skipList ∧
        snapshot = buildQuorumSnapshot env cycle (mnsUsedAtH env params cycle prev) skipList := by
  rw [buildNewQuorumQuarterMembers] at hbuild
  split at hbuild
  case isTrue => cases hbuild
  case isFalse hbase =>
    dsimp only at hbuild
    split at hbuild
    case isTrue => cases hbuild
    case isFalse =>
      split at hbuild
      case h_1 quarters' skipList hfill =>
        cases hbuild
        exact ⟨not_not.mp hbase, skipList, hfill, rfl⟩
      case h_2 => cases hbuild
      case h_3 => cases hbuild

/-- Either mode decodes to what the reader finds with the indexes that were skipped. -/
lemma getQuorumQuarterMembersBySnapshot_eq (hbase : isCycleBase params cycle = true)
    (used : CDeterministicMNList) (skipped : List Nat) :
    let snapshot := buildQuorumSnapshot env cycle used (encodeSkips 0 skipped)
    let combined := sortedCombinedMns env cycle snapshot
    combined ≠ [] → getQuorumQuarterMembersBySnapshot env params cycle snapshot =
      (readGroups combined.length (quarterSize params) params.signingActiveQuorumCount 0
        skipped).map (membersAt combined) := by
  intro snapshot combined hne
  rw [getQuorumQuarterMembersBySnapshot, if_neg (not_not.mpr hbase)]
  rw [if_neg (by rwa [List.isEmpty_iff]), ← decodeQuarters_cast]
  cases skipped with
  | nil => rfl
  | cons idx skipped =>
    have hprocess := processSkipList_encodeSkips 0 (idx :: skipped)
    rw [← hprocess]
    rfl

/-- Removed masternodes are left out in every cycle with rotation. -/
lemma skipRemovedMNs_of_enabled (hbase : isCycleBase params cycle = true)
    (henabled : env.consensus.isQuorumRotationEnabled params cycle.nHeight = true) :
    skipRemovedMNs env cycle = true := by
  have hle := env.v19_le
  rw [isCycleBase, and_eq_true, decide_eq_true_eq] at hbase
  simp only [QuorumConsensus.isQuorumRotationEnabled, hbase.2, and_eq_true,
    decide_eq_true_eq] at henabled
  rw [skipRemovedMNs, or_eq_true, decide_eq_true_eq]
  omega

lemma memberHashes_map_membersAt (combined : List CDeterministicMN) (groups : List (List Nat)) :
    memberHashes (groups.map (membersAt combined)) =
      groups.map (membersAt (combined.map proTxHash)) := by
  rw [memberHashes, map_map]
  exact map_congr_left fun group _ => map_membersAt _ _ _

lemma memberHashes_of_empty (ws : List (List Bool)) (n p : Nat) :
    memberHashes ((takenGroups n p ws).map (membersAt [])) = replicate ws.length [] := by
  induction ws generalizing p with
  | nil => rfl
  | cons w ws ih =>
    have hnone : ∀ positions, membersAt ([] : List CDeterministicMN) positions = [] := fun positions =>
      filterMap_eq_nil_iff.mpr fun p _ => rfl
    rw [takenGroups, map_cons, memberHashes, map_cons, hnone, ← memberHashes, ih]
    rfl

/-- The reader finds what was taken exactly if the quarters are full and nothing is skipped
right after a lap without a skip. -/
lemma readGroups_iff {n : Nat} (hn : (sortedCombinedMnsList env params cycle prev).length = n)
    (hpos : 0 < n) {ws : List (List Bool)}
    (hwalks : FilledWalks (sortedCombinedMnsList env params cycle prev) (quarterSize params)
      (usedLists env params cycle prev) 0 ws) :
    readGroups n (quarterSize params) params.signingActiveQuorumCount 0 (passed n 0 ws.flatten) =
      takenGroups n 0 ws ↔
    HaveFullQuarters env params cycle prev ∧ NeverSkipsAfterLap env params cycle prev := by
  have hlength : ws.length = params.signingActiveQuorumCount := by
    rw [hwalks.length_eq, usedLists, length_map, length_range]
  have hread : (∀ w ∈ ws, w.count true = quarterSize params) →
      (readGroups n (quarterSize params) ws.length 0 (passed n 0 ws.flatten) = takenGroups n 0 ws ↔
      NeverSkipsAfterLap env params cycle prev) := by
    intro hfull
    subst hn
    have hall := hwalks.walkAll hfull
    obtain ⟨-, hcount, hclosed⟩ := hall.props hpos
    rw [readGroups_eq_takenGroups_iff hpos hcount hclosed]
    constructor
    · intro hnot ws' hws'
      rw [← hall.unique hws']
      exact hnot
    · exact fun hnever => hnever ws hall
  rw [← hlength, HaveFullQuarters, ← hwalks.full_iff]
  constructor
  · intro heq
    have hfull : ∀ w ∈ ws, w.count true = quarterSize params := by
      have hlengths := congrArg (map length) heq
      rw [map_length_readGroups] at hlengths
      exact map_length_takenGroups_iff.mp hlengths.symm
    exact ⟨hfull, (hread hfull).mp heq⟩
  · exact fun ⟨hfull, hnever⟩ => (hread hfull).mpr hnever

/-- **Snapshots.** The quarters that were built are decoded from the snapshot exactly if there
is no masternode at all, or every quorum finds a full quarter and nothing is skipped right
after a lap in which nothing was. -/
theorem decodes_iff (hall : cycle.allMns.WellIndexed) (hformer : prev.Former cycle.allMns)
    (henabled : env.consensus.isQuorumRotationEnabled params cycle.nHeight = true)
    (hbuild : buildNewQuorumQuarterMembers env params cycle prev = some (quarters, some snapshot)) :
    memberHashes (getQuorumQuarterMembersBySnapshot env params cycle snapshot) =
        memberHashes quarters ↔
      sortedCombinedMnsList env params cycle prev = [] ∨
        HaveFullQuarters env params cycle prev ∧ NeverSkipsAfterLap env params cycle prev := by
  obtain ⟨hbase, skipList, hfill, rfl⟩ := stored_spec hbuild
  obtain ⟨ws, hwalks, rfl, hskips⟩ :=
    fillQuarters_spec (show [] = encodeSkips 0 [] from rfl) rfl hfill
  have hcombined := combined_eq params hall (skipRemovedMNs_of_enabled hbase henabled)
    hformer skipList
  have hlength := congrArg length hcombined
  rw [length_map, length_map] at hlength
  by_cases hempty : sortedCombinedMnsList env params cycle prev = []
  case pos =>
    -- there is no one to choose from, neither for the builder nor for the decoder
    rw [hempty, map_nil, map_eq_nil_iff] at hcombined
    rw [hempty, memberHashes_of_empty, hwalks.length_eq, usedLists,
      getQuorumQuarterMembersBySnapshot, if_neg (not_not.mpr hbase), hcombined]
    simp [memberHashes]
  have hpos := length_pos_iff.mpr hempty
  have hne : sortedCombinedMns env cycle (buildQuorumSnapshot env cycle
      (mnsUsedAtH env params cycle prev) skipList) ≠ [] := by
    rw [← length_pos_iff, hlength]
    exact hpos
  rw [or_iff_right hempty, ← readGroups_iff rfl hpos hwalks]
  subst hskips
  rw [getQuorumQuarterMembersBySnapshot_eq hbase _ _ hne, memberHashes_map_membersAt, hcombined,
    hlength, memberHashes_map_membersAt]
  refine map_membersAt_inj (nodup_combined hall) (fun p hp => ?_) (fun p hp => ?_)
  · rw [length_map]
    rw [flatten_readGroups] at hp
    exact lt_of_mem_readGroup hpos hp
  · rw [length_map]
    rw [flatten_takenGroups] at hp
    exact lt_of_mem_visited hpos hp

/-- A test network; the sums stand for hashes. -/
def sampleEnv : RotationEnv where
  consensus := testNetQuorumConsensus
  v19_le := le_rfl
  sha256 := fun a b => a + b

/-- A confirmed masternode. -/
def sampleMN (i : Nat) : CDeterministicMN where
  internalId := i
  proTxHash := i + 1
  collateralOutpoint := ⟨i + 1, 0⟩
  nOperatorReward := 0
  nType := .regular
  pdmnState :=
    { confirmedHash := 1, confirmedHashWithProRegTxHash := 100 - i, keyIDOwner := i + 1
      pubKeyOperator := .key (i + 1) true, addr := ⟨i + 1, 1⟩ }

/-- A cycle with the given number of masternodes. -/
def sampleCycle (count : Nat) : QuorumCycle where
  nHeight := 576
  modifier := 5
  allMns := ((range count).map sampleMN).foldl tryAddMN emptyList

/-- The second of the quorums has had one quarter, of one masternode. -/
def samplePrev : PreviousQuorumQuarters where
  quarterHMinusC := [[], [sampleMN 0]]
  quarterHMinus2C := []
  quarterHMinus3C := []

lemma wellIndexed_sampleCycle (count : Nat) : (sampleCycle count).allMns.WellIndexed :=
  wellIndexed_foldl_tryAddMN (.initial _ _)

lemma former_samplePrev {count : Nat}
    (hget : (sampleCycle count).allMns.getMN 1 = some (sampleMN 0)) :
    samplePrev.Former (sampleCycle count).allMns := by
  intro i mn hmem
  have hmn : mn = sampleMN 0 := by
    match i with
    | 0 => simp [PreviousQuorumQuarters.members, samplePrev] at hmem
    | 1 => simpa [PreviousQuorumQuarters.members, samplePrev] using hmem
    | i + 2 => simp [PreviousQuorumQuarters.members, samplePrev] at hmem
  subst hmn
  refine ⟨rfl, rfl, fun dmn hdmn => ?_⟩
  have hsome : some dmn = some (sampleMN 0) := hdmn.symm.trans hget
  cases hsome
  exact ⟨rfl, rfl⟩

/-- The quarters of the given masternodes. -/
def sampleQuarters (ids : List (List Nat)) : List (List CDeterministicMN) :=
  ids.map fun quarter => quarter.map sampleMN

theorem decodes_iff_sampleCycle :
    memberHashes (getQuorumQuarterMembersBySnapshot sampleEnv llmq_10_75 (sampleCycle 3)
        ⟨[true, false, false], .skippingEntries, [2]⟩) =
      memberHashes (sampleQuarters
        [[1, 2], [1, 2], [0, 1], [2, 0], [1, 2], [0, 1], [2, 0], [1, 2]]) ↔
    sortedCombinedMnsList sampleEnv llmq_10_75 (sampleCycle 3) samplePrev = [] ∨
      HaveFullQuarters sampleEnv llmq_10_75 (sampleCycle 3) samplePrev ∧
        NeverSkipsAfterLap sampleEnv llmq_10_75 (sampleCycle 3) samplePrev :=
  decodes_iff (wellIndexed_sampleCycle 3) (former_samplePrev (by decide +kernel))
    (by decide +kernel) (by decide +kernel)

/-- With two masternodes, the second quorum has one of them used: it gets a quarter of one
member, and a quarter of two is decoded. -/
theorem decoded_quarter_differs :
    (sampleCycle 2).allMns.WellIndexed ∧ samplePrev.Former (sampleCycle 2).allMns ∧
    sampleEnv.consensus.isQuorumRotationEnabled llmq_10_75 (sampleCycle 2).nHeight = true ∧
    buildNewQuorumQuarterMembers sampleEnv llmq_10_75 (sampleCycle 2) samplePrev =
      some (sampleQuarters [[1, 0], [1], [0, 1], [0, 1], [0, 1], [0, 1], [0, 1], [0, 1]],
        some ⟨[true, false], .noSkipping, []⟩) ∧
    memberHashes (getQuorumQuarterMembersBySnapshot sampleEnv llmq_10_75 (sampleCycle 2)
        ⟨[true, false], .noSkipping, []⟩) ≠
      memberHashes (sampleQuarters [[1, 0], [1], [0, 1], [0, 1], [0, 1], [0, 1], [0, 1], [0, 1]]) :=
  ⟨wellIndexed_sampleCycle 2, former_samplePrev (by decide +kernel), by decide +kernel,
    by decide +kernel, by decide +kernel⟩

end Decoding

end HootChain.Llmq.Rotation

import Mathlib.Tactic

/-!
# Bounded Move-to-Front Tables

Two parties keep a table of the values they have seen last. A value in the table is
sent as its place in it and goes to the front; another value is sent as it is and put
in front, and the oldest value is dropped from a full table. The receiver may know
values that the sender does not: what is needed is that the sender's table is the front
part of the receiver's.
-/

namespace HootChain.Foundation

open List

variable {α : Type}

/-- Moves the value at a place to the front. -/
def toFront (table : List α) (place : Nat) : List α :=
  match table[place]? with
  | some a => a :: table.eraseIdx place
  | none => table

/-- Puts a value in front and drops the oldest of too many. -/
def saveFront (capacity : Nat) (table : List α) (a : α) : List α :=
  if capacity < (a :: table).length then (a :: table).dropLast else a :: table

/-- The receiver's table starts with the sender's. -/
structure Tracks (capacity : Nat) (sender receiver : List α) : Prop where
  front : sender <+: receiver
  length_le : receiver.length ≤ capacity

namespace Tracks

lemma length_saveFront_le (hle : receiver.length ≤ capacity) :
    (saveFront capacity receiver a).length ≤ capacity := by
  unfold saveFront
  split
  · rw [length_dropLast, length_cons]
    omega
  · next hroom => exact not_lt.mp hroom

variable {capacity place : Nat} {sender receiver : List α} {a : α}
  (h : Tracks capacity sender receiver)

include h

lemma getElem? (hplace : sender[place]? = some a) : receiver[place]? = some a := by
  obtain ⟨extra, rfl⟩ := h.front
  have hlt : place < sender.length := (List.getElem?_eq_some_iff.mp hplace).1
  rw [getElem?_append_left hlt, hplace]

/-- Moving an entry to the front keeps the tables in step. -/
lemma toFront (hplace : sender[place]? = some a) :
    Tracks capacity (toFront sender place) (toFront receiver place) := by
  have hreceiver := h.getElem? hplace
  have hlt : place < receiver.length := (List.getElem?_eq_some_iff.mp hreceiver).1
  have hlt' : place < sender.length := (List.getElem?_eq_some_iff.mp hplace).1
  simp only [Foundation.toFront, hplace, hreceiver]
  refine ⟨?_, ?_⟩
  · obtain ⟨extra, rfl⟩ := h.front
    rw [eraseIdx_append_of_lt_length hlt']
    exact ⟨extra, rfl⟩
  · rw [length_cons, length_eraseIdx_of_lt hlt]
    have hle := h.length_le
    omega

/-- So does saving a new one. -/
lemma save (a : α) :
    Tracks capacity (saveFront capacity sender a) (saveFront capacity receiver a) := by
  refine ⟨?_, length_saveFront_le h.length_le⟩
  have hcons : a :: sender <+: a :: receiver := (prefix_cons_inj a).mpr h.front
  have hle := h.front.length_le
  have hroom := h.length_le
  unfold saveFront
  split
  · -- a full sender's table is the receiver's
    next hfull =>
    rw [length_cons] at hfull
    have heq : sender = receiver := h.front.eq_of_length (by omega)
    rw [heq]
    split
    · exact prefix_rfl
    · exact dropLast_prefix _
  · next hsender =>
    split
    · rw [dropLast_eq_take]
      refine prefix_take_iff.mpr ⟨hcons, ?_⟩
      rw [length_cons] at *
      simp only [length_cons]
      omega
    · exact hcons

end Tracks

end HootChain.Foundation

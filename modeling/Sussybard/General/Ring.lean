import Mathlib.Data.Vector.Basic
import Mathlib.Data.Nat.ModEq
import Mathlib.Data.List.Basic

/-!
# Rings of slots and first-in first-out queues

A ring of `N` slots written at consecutive positions modulo `N` holds the last
`N` entries of its history, whatever its readers do. A reader that is at most
`N` entries behind therefore reads the entry it is due. The specification that
such a ring is meant to meet is the unbounded queue of `Fifo.Step`.
-/

namespace Ring

variable {α : Type*} {N : ℕ}

/-- The slots hold the last `N` entries of the history, entry `j` in slot `j % N`. -/
def Records (slots : Vector α N) (history : List α) : Prop :=
  ∀ (j : ℕ) (x : α), history[j]? = some x → history.length ≤ j + N → slots[j % N]? = some x

/-- An empty history is recorded by any slots. -/
theorem Records.nil (slots : Vector α N) : Records slots [] := by
  intro j x hx
  simp at hx

/-- Entries of the last `N` positions lie in different slots. -/
theorem slot_ne {j n : ℕ} (hlt : j < n) (hle : n < j + N) : j % N ≠ n % N := by
  intro heq
  have hdvd : N ∣ n - j := (Nat.modEq_iff_dvd' hlt.le).mp heq
  have := Nat.le_of_dvd (by omega) hdvd
  omega

/-- Writing the next entry at its slot extends the recorded history. -/
theorem Records.push {slots : Vector α N} {history : List α} (h : Records slots history)
    {i : ℕ} (hi : i < N) (hslot : i = history.length % N) (x : α) :
    Records (slots.set i x hi) (history ++ [x]) := by
  intro j y hy hlen
  simp only [List.length_append, List.length_singleton] at hlen
  rcases lt_trichotomy j history.length with hlt | rfl | hgt
  · rw [List.getElem?_append_left hlt] at hy
    have hne : i ≠ j % N := by
      rw [hslot]
      exact (slot_ne hlt (by omega)).symm
    rw [Vector.getElem?_set_ne hi hne]
    exact h j y hy (by omega)
  · rw [List.getElem?_concat_length] at hy
    rw [← hslot, Vector.getElem?_set_self hi]
    exact hy
  · rw [List.getElem?_eq_none (by simp; omega)] at hy
    cases hy

end Ring

namespace Fifo

variable {α : Type*}

/-- What one step does to a queue, as seen from outside. -/
inductive Label (α : Type*) where
  | put (x : α)
  | get (x : α)
  | silent

/-- What a step puts in. -/
def Label.puts : Label α → List α
  | .put x => [x]
  | .get _ | .silent => []

/-- What a step gets out. -/
def Label.gets : Label α → List α
  | .get x => [x]
  | .put _ | .silent => []

/-- The unbounded first-in first-out queue. -/
inductive Step : List α → Label α → List α → Prop
  | put (queue : List α) (x : α) : Step queue (.put x) (queue ++ [x])
  | get (queue : List α) (x : α) : Step (x :: queue) (.get x) queue
  | silent (queue : List α) : Step queue .silent queue

/-- Runs of the queue. -/
inductive Run : List α → List (Label α) → List α → Prop
  | nil (queue : List α) : Run queue [] queue
  | concat {queue queue' queue'' : List α} {labels : List (Label α)} {label : Label α}
      (hrun : Run queue labels queue') (hstep : Step queue' label queue'') :
      Run queue (labels ++ [label]) queue''

/-- A step gets out the first of what was in and what it puts in. -/
theorem Step.conserves {queue queue' : List α} {label : Label α} (h : Step queue label queue') :
    label.gets ++ queue' = queue ++ label.puts := by
  cases h with
  | put x => rfl
  | get x => exact (List.append_nil _).symm
  | silent => exact (List.append_nil _).symm

/-- **First in, first out.** What a run gets out, followed by what is left, is what was in at
first followed by what it put in. -/
theorem Run.conserves {queue queue' : List α} {labels : List (Label α)}
    (h : Run queue labels queue') :
    labels.flatMap Label.gets ++ queue' = queue ++ labels.flatMap Label.puts := by
  induction h with
  | nil => simp
  | @concat queue' queue'' labels label hrun hstep ih =>
    calc (labels ++ [label]).flatMap Label.gets ++ queue''
        = labels.flatMap Label.gets ++ (label.gets ++ queue'') := by simp
      _ = (labels.flatMap Label.gets ++ queue') ++ label.puts := by
          rw [hstep.conserves, List.append_assoc]
      _ = queue ++ (labels ++ [label]).flatMap Label.puts := by simp [ih]

end Fifo

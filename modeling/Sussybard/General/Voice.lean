import Sussybard.General.Switching

/-!
# A voice that plays one key at a time

A monophonic voice holds at most one key. Pressing a key replaces whatever is
held; releasing a key matters only when it is the key that is held. Keys that
were replaced are forgotten, so the voice plays the last press as long as that
key is not released. This is the purpose of a monophony tracker, stated for
arbitrary keys.
-/

namespace Voice

open Switching

/-- What a player does with one key. -/
inductive Gesture (κ : Type*) where
  | press (key : κ)
  | release (key : κ)
  deriving DecidableEq, Repr

variable {κ : Type*} [DecidableEq κ]

/-- The key held after one gesture. -/
def next (held : Option κ) : Gesture κ → Option κ
  | .press key => some key
  | .release key => if held = some key then none else held

/-- The key held after a list of gestures. -/
def play (held : Option κ) (gestures : List (Gesture κ)) : Option κ := gestures.foldl next held

@[simp] theorem play_nil (held : Option κ) : play held [] = held := rfl

@[simp] theorem play_cons (held : Option κ) (g : Gesture κ) (gs : List (Gesture κ)) :
    play held (g :: gs) = play (next held g) gs := rfl

/-- The key `key` was pressed, and after that neither was anything pressed nor `key` released. -/
def LastPressed (gestures : List (Gesture κ)) (key : κ) : Prop :=
  ∃ before after, gestures = before ++ .press key :: after ∧
    (∀ other, .press other ∉ after) ∧ .release key ∉ after

omit [DecidableEq κ] in
/-- A final press is the last press. -/
theorem lastPressed_concat_press {gs : List (Gesture κ)} {key other : κ} :
    LastPressed (gs ++ [.press other]) key ↔ other = key := by
  constructor
  · rintro ⟨before, after, heq, hpress, -⟩
    rcases after.eq_nil_or_concat' with rfl | ⟨after, g, rfl⟩
    · simpa using (List.append_inj' heq rfl).2
    · rw [← List.cons_append, ← List.append_assoc] at heq
      have hg := (List.append_inj' heq rfl).2
      have hmem := hpress other
      simp_all
  · rintro rfl
    exact ⟨gs, [], by simp⟩

omit [DecidableEq κ] in
/-- A final release keeps the last press unless it releases that key. -/
theorem lastPressed_concat_release {gs : List (Gesture κ)} {key other : κ} :
    LastPressed (gs ++ [.release other]) key ↔ LastPressed gs key ∧ other ≠ key := by
  constructor
  · rintro ⟨before, after, heq, hpress, hrelease⟩
    rcases after.eq_nil_or_concat' with rfl | ⟨after, g, rfl⟩
    · have hg := (List.append_inj' heq rfl).2
      simp at hg
    · rw [← List.cons_append, ← List.append_assoc] at heq
      obtain ⟨hgs, hg⟩ := List.append_inj' heq rfl
      simp only [List.cons.injEq, and_true] at hg
      subst hg
      simp only [List.mem_append, List.mem_singleton, not_or] at hpress hrelease
      refine ⟨⟨before, after, hgs, fun k => (hpress k).1, hrelease.1⟩, ?_⟩
      rintro rfl
      exact hrelease.2 rfl
  · rintro ⟨⟨before, after, rfl, hpress, hrelease⟩, hne⟩
    refine ⟨before, after ++ [.release other], by simp, ?_, ?_⟩
    · simpa using hpress
    · simp [hrelease, hne.symm]

/-- **The last press wins.** A voice that starts empty holds exactly the key that was
pressed last, if that key was not released since. -/
theorem play_eq_some_iff (gestures : List (Gesture κ)) (key : κ) :
    play none gestures = some key ↔ LastPressed gestures key := by
  induction gestures using List.reverseRecOn generalizing key with
  | nil => simp [LastPressed]
  | append_singleton gs g ih =>
    have hplay : play none (gs ++ [g]) = next (play none gs) g := by simp [play]
    rw [hplay]
    cases g with
    | press other => simp [next, lastPressed_concat_press]
    | release other =>
      rw [lastPressed_concat_release, ← ih key]
      by_cases hheld : play none gs = some other
      · simp [next, hheld]
      · simp only [next, if_neg hheld]
        constructor
        · intro h
          refine ⟨h, ?_⟩
          rintro rfl
          exact hheld h
        · exact And.left

/-- The switches that move a single key from one held state to another. -/
def edges (a b : Option κ) : List (Switch κ) :=
  if a = b then [] else a.toList.map (⟨false, ·⟩) ++ b.toList.map (⟨true, ·⟩)

/-- The switches between two held states alternate. -/
theorem edges_alternates (a b : Option κ) : Alternates a (edges a b) b := by
  by_cases hab : a = b
  · subst hab
    simpa [edges] using Alternates.nil a
  · rw [edges, if_neg hab]
    cases a with
    | none =>
      cases b with
      | none => exact absurd rfl hab
      | some k => exact .press (.nil _)
    | some j =>
      cases b with
      | none => exact .release (.nil _)
      | some k => exact .release (.press (.nil _))

end Voice

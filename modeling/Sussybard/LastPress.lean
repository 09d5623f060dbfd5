import Sussybard.HandleNote

/-!
# The last press wins

A tracker that starts empty and is given any list of events ends with the offset
of the note that was pressed last in its window, unless that note was released
since. The list is seen by the voice of the tracker as a list of gestures, for
which the statement is `Voice.play_eq_some_iff`.
-/

namespace Sussybard

open Transducer Voice

/-- Consecutive calls of `handle_note` for one tracker, with the values returned. -/
def handleNotes (session : Session) (isLocal : Bool) (tracker : MonophonyTracker)
    (events : List NoteEvent) : MonophonyTracker × List Bool :=
  exec (fun tracker event =>
    let (handled, tracker', _) := handleNote session event tracker isLocal
    (tracker', [handled])) tracker events

/-- The last press in the window is of `note`, and `note` is not released after it. -/
def LastPress (tracker : MonophonyTracker) (events : List NoteEvent) (note : Int32) : Prop :=
  ∃ before after, events = before ++ ⟨note, true⟩ :: after ∧
    tracker.noteIsInRange note = true ∧
    (∀ e ∈ after, e.pressed = true → tracker.noteIsInRange e.note = false) ∧
    ⟨note, false⟩ ∉ after

/-- The tracker moves by `next` and each call returns whether its note is in range. -/
theorem handleNotes_eq (session : Session) (isLocal : Bool) (tracker : MonophonyTracker)
    (events : List NoteEvent) :
    handleNotes session isLocal tracker events =
      (events.foldl MonophonyTracker.next tracker,
        events.map fun e => tracker.noteIsInRange e.note) := by
  induction events generalizing tracker with
  | nil => rfl
  | cons e events ih =>
    have hrest := ih (tracker.next e)
    simp only [handleNotes, handleNote_tracker, handleNote_fst] at hrest ⊢
    simp [exec_cons, hrest]

/-- A tracker holds what its voice holds after the gestures in its window. -/
theorem held_foldl_next (tracker : MonophonyTracker) (events : List NoteEvent) :
    (events.foldl MonophonyTracker.next tracker).held =
      play tracker.held (events.filterMap tracker.gesture) := by
  induction events generalizing tracker with
  | nil => rfl
  | cons e events ih =>
    have hgesture : (tracker.next e).gesture = tracker.gesture := funext (next_gesture tracker e)
    rw [List.foldl_cons, ih, hgesture, held_next]
    cases hg : tracker.gesture e with
    | none => rw [List.filterMap_cons_none hg]
    | some g => rw [List.filterMap_cons_some hg, play_cons]

/-- Events never unsettle a tracker. -/
theorem MonophonyTracker.Settled.foldl_next {tracker : MonophonyTracker} (h : tracker.Settled)
    (events : List NoteEvent) : (events.foldl MonophonyTracker.next tracker).Settled := by
  induction events generalizing tracker with
  | nil => exact h
  | cons e events ih => exact ih (h.next e)

/-- Events never move the window of a tracker. -/
theorem foldl_next_noteIsInRange (tracker : MonophonyTracker) (events : List NoteEvent)
    (note : Int32) :
    (events.foldl MonophonyTracker.next tracker).noteIsInRange note =
      tracker.noteIsInRange note := by
  induction events generalizing tracker with
  | nil => rfl
  | cons e events ih => rw [List.foldl_cons, ih, next_noteIsInRange]

/-- An event is the press of a key of the voice when it presses the note of that offset. -/
theorem gesture_eq_press_iff {tracker : MonophonyTracker} {e : NoteEvent} {offset : Int32} :
    tracker.gesture e = some (.press offset) ↔
      tracker.noteIsInRange e.note = true ∧ e.pressed = true ∧
        e.note - tracker.baseKey = offset := by
  cases hin : tracker.noteIsInRange e.note <;> cases hpress : e.pressed <;>
    simp [MonophonyTracker.gesture, hin, hpress]

/-- Likewise for releases. -/
theorem gesture_eq_release_iff {tracker : MonophonyTracker} {e : NoteEvent} {offset : Int32} :
    tracker.gesture e = some (.release offset) ↔
      tracker.noteIsInRange e.note = true ∧ e.pressed = false ∧
        e.note - tracker.baseKey = offset := by
  cases hin : tracker.noteIsInRange e.note <;> cases hpress : e.pressed <;>
    simp [MonophonyTracker.gesture, hin, hpress]

/-- The last gesture that presses a key is the last press of its note. -/
theorem lastPressed_gestures_iff (tracker : MonophonyTracker) (events : List NoteEvent)
    (note : Int32) :
    LastPressed (events.filterMap tracker.gesture) (note - tracker.baseKey) ↔
      LastPress tracker events note := by
  constructor
  · rintro ⟨before, after, heq, hpress, hrelease⟩
    obtain ⟨front, back, rfl, -, hback⟩ := List.filterMap_eq_append_iff.mp heq
    obtain ⟨skipped, e, rest, rfl, -, he, rfl⟩ := List.filterMap_eq_cons_iff.mp hback
    obtain ⟨hin, hpressed, hoffset⟩ := gesture_eq_press_iff.mp he
    have hnote : e.note = note := by grind
    have heq : e = ⟨note, true⟩ := by
      cases e
      simp_all
    subst heq
    refine ⟨front ++ skipped, rest, by simp, hin, ?_, ?_⟩
    · intro e' hmem hpressed'
      by_contra hin'
      rw [Bool.not_eq_false] at hin'
      exact hpress _ (List.mem_filterMap.mpr
        ⟨e', hmem, gesture_eq_press_iff.mpr ⟨hin', hpressed', rfl⟩⟩)
    · intro hmem
      exact hrelease (List.mem_filterMap.mpr
        ⟨_, hmem, gesture_eq_release_iff.mpr ⟨hin, rfl, rfl⟩⟩)
  · rintro ⟨before, after, rfl, hin, hpress, hrelease⟩
    have hg : tracker.gesture ⟨note, true⟩ = some (.press (note - tracker.baseKey)) :=
      gesture_eq_press_iff.mpr ⟨hin, rfl, rfl⟩
    refine ⟨before.filterMap tracker.gesture, after.filterMap tracker.gesture, ?_, ?_, ?_⟩
    · rw [List.filterMap_append, List.filterMap_cons_some hg]
    · intro other hmem
      obtain ⟨e, he, hge⟩ := List.mem_filterMap.mp hmem
      obtain ⟨hin', hpressed', -⟩ := gesture_eq_press_iff.mp hge
      rw [hpress e he hpressed'] at hin'
      cases hin'
    · intro hmem
      obtain ⟨e, he, hge⟩ := List.mem_filterMap.mp hmem
      obtain ⟨-, hpressed', hoffset⟩ := gesture_eq_release_iff.mp hge
      have hnote : e.note = note := by grind
      have heq : e = ⟨note, false⟩ := by
        cases e
        simp_all
      exact hrelease (heq ▸ he)

/-- **The last press wins.** A tracker with any window that starts with nothing pressed and
is given any list of events ends with the offset of the last note pressed in its window when
that note was not released since, and with -1 otherwise; each call returns whether its note
is in the window. -/
theorem tracker_last_press_wins (session : Session) (isLocal : Bool)
    (baseKey range synthTranspose : Int32) (events : List NoteEvent) :
    let tracker : MonophonyTracker := ⟨-1, baseKey, range, synthTranspose⟩
    let result := handleNotes session isLocal tracker events
    (∀ note, LastPress tracker events note →
      result.1.pressedNoteOffset = note - baseKey) ∧
    ((∀ note, ¬ LastPress tracker events note) → result.1.pressedNoteOffset = -1) ∧
    result.2 = events.map fun e => tracker.noteIsInRange e.note := by
  intro tracker result
  have hresult : result = _ := handleNotes_eq session isLocal tracker events
  have hheld : result.1.held = play none (events.filterMap tracker.gesture) := by
    rw [hresult]
    exact held_foldl_next tracker events
  have hsettled : result.1.Settled := by
    rw [hresult]
    exact MonophonyTracker.Settled.foldl_next (Or.inl rfl) events
  refine ⟨?_, ?_, by rw [hresult]⟩
  · intro note hlast
    have hplay : result.1.held = some (note - baseKey) := by
      rw [hheld, play_eq_some_iff]
      exact (lastPressed_gestures_iff tracker events note).mpr hlast
    unfold MonophonyTracker.held at hplay
    split_ifs at hplay
    exact Option.some.inj hplay
  · intro hnever
    apply hsettled.eq_neg_one
    rw [Option.eq_none_iff_forall_ne_some]
    intro offset hsome
    have hnote : offset + baseKey - baseKey = offset := by grind
    rw [hheld, play_eq_some_iff, ← hnote] at hsome
    exact hnever _ ((lastPressed_gestures_iff tracker events (offset + baseKey)).mp hsome)

end Sussybard

import Sussybard.Tracker
import Sussybard.General.Transducer

/-!
# What one call of `handle_note` does

A call ends in one of six ways, listed by `NoteHandling`. Everything that later
files know about `handle_note` is read off this list: how it moves the tracker
(`next`), what it posts, and which key events it dispatches. The tracker is a
monophonic voice in the sense of `Voice`, with the offsets in its window as keys.
-/

namespace Sussybard

open Switching

/-- The six ways in which a call of `handle_note` ends, with everything it does. -/
inductive NoteHandling (session : Session) (event : NoteEvent) (tracker : MonophonyTracker)
    (isLocal : Bool) : Bool × MonophonyTracker × List Effect → Prop
  | outside (hout : tracker.noteIsInRange event.note = false) :
      NoteHandling session event tracker isLocal (false, tracker, [])
  | doubleTap (hin : tracker.noteIsInRange event.note = true) (hpress : event.pressed = true)
      (hheld : tracker.pressedNoteOffset = event.note - tracker.baseKey) :
      NoteHandling session event tracker isLocal (true, tracker, [])
  | firstPress (hin : tracker.noteIsInRange event.note = true) (hpress : event.pressed = true)
      (hfree : ¬ 0 ≤ tracker.pressedNoteOffset) :
      NoteHandling session event tracker isLocal
        (true, { tracker with pressedNoteOffset := event.note - tracker.baseKey },
          [.post ⟨true, synthChannel isLocal, event.note + tracker.synthTranspose⟩,
            .readCode (event.note - tracker.baseKey)] ++
          dispatchKeys session isLocal [⟨session.code (event.note - tracker.baseKey), true⟩])
  | pressOver (hin : tracker.noteIsInRange event.note = true) (hpress : event.pressed = true)
      (hother : tracker.pressedNoteOffset ≠ event.note - tracker.baseKey)
      (hheld : 0 ≤ tracker.pressedNoteOffset) :
      NoteHandling session event tracker isLocal
        (true, { tracker with pressedNoteOffset := event.note - tracker.baseKey },
          [.post ⟨true, synthChannel isLocal, event.note + tracker.synthTranspose⟩,
            .readCode tracker.pressedNoteOffset,
            .post ⟨false, synthChannel isLocal,
              tracker.pressedNoteOffset + tracker.baseKey + tracker.synthTranspose⟩,
            .readCode (event.note - tracker.baseKey)] ++
          dispatchKeys session isLocal [⟨session.code tracker.pressedNoteOffset, false⟩,
            ⟨session.code (event.note - tracker.baseKey), true⟩])
  | releaseHeld (hin : tracker.noteIsInRange event.note = true) (hrelease : event.pressed = false)
      (hheld : tracker.pressedNoteOffset = event.note - tracker.baseKey) :
      NoteHandling session event tracker isLocal
        (true, { tracker with pressedNoteOffset := -1 },
          [.post ⟨false, synthChannel isLocal, event.note + tracker.synthTranspose⟩,
            .readCode tracker.pressedNoteOffset,
            .post ⟨false, synthChannel isLocal,
              tracker.pressedNoteOffset + tracker.baseKey + tracker.synthTranspose⟩] ++
          dispatchKeys session isLocal [⟨session.code tracker.pressedNoteOffset, false⟩])
  | releaseOther (hin : tracker.noteIsInRange event.note = true) (hrelease : event.pressed = false)
      (hother : tracker.pressedNoteOffset ≠ event.note - tracker.baseKey) :
      NoteHandling session event tracker isLocal
        (true, tracker,
          [.post ⟨false, synthChannel isLocal, event.note + tracker.synthTranspose⟩])

/-- A note is in range when its offset is a position in the window. -/
theorem noteIsInRange_iff {tracker : MonophonyTracker} {note : Int32} :
    tracker.noteIsInRange note = true ↔
      0 ≤ note - tracker.baseKey ∧ note - tracker.baseKey < tracker.range := by
  simp [MonophonyTracker.noteIsInRange]

/-- Nothing is dispatched when no key event was collected. -/
@[simp] theorem dispatchKeys_nil (session : Session) (isLocal : Bool) :
    dispatchKeys session isLocal [] = [] := by simp [dispatchKeys]

/-- Every call of `handle_note` ends in one of the six ways. -/
theorem handleNote_spec (session : Session) (event : NoteEvent) (tracker : MonophonyTracker)
    (isLocal : Bool) :
    NoteHandling session event tracker isLocal (handleNote session event tracker isLocal) := by
  cases hin : tracker.noteIsInRange event.note with
  | false => simpa [handleNote, hin] using NoteHandling.outside hin
  | true =>
    have hoffset := (noteIsInRange_iff.mp hin).1
    by_cases hheld : tracker.pressedNoteOffset = event.note - tracker.baseKey
    · cases hpress : event.pressed with
      | true => simpa [handleNote, hin, hpress, hheld] using NoteHandling.doubleTap hin hpress hheld
      | false =>
        have h := @NoteHandling.releaseHeld session event tracker isLocal hin hpress hheld
        simpa [handleNote, hin, hpress, hheld, hoffset] using h
    · cases hpress : event.pressed with
      | true =>
        by_cases hsome : 0 ≤ tracker.pressedNoteOffset
        · have h := @NoteHandling.pressOver session event tracker isLocal hin hpress hheld hsome
          simpa [handleNote, hin, hpress, hheld, hsome] using h
        · have h := @NoteHandling.firstPress session event tracker isLocal hin hpress hsome
          simpa [handleNote, hin, hpress, hheld, hsome] using h
      | false =>
        have h := @NoteHandling.releaseOther session event tracker isLocal hin hpress hheld
        simpa [handleNote, hin, hpress, hheld] using h

/-! ### The tracker -/

/-- The tracker after an event, apart from what the call emits. -/
def MonophonyTracker.next (tracker : MonophonyTracker) (event : NoteEvent) : MonophonyTracker :=
  if tracker.noteIsInRange event.note then
    if event.pressed then { tracker with pressedNoteOffset := event.note - tracker.baseKey }
    else if tracker.pressedNoteOffset = event.note - tracker.baseKey then
      { tracker with pressedNoteOffset := -1 }
    else tracker
  else tracker

/-- `handle_note` returns whether the note is in range. -/
theorem handleNote_fst (session : Session) (event : NoteEvent) (tracker : MonophonyTracker)
    (isLocal : Bool) :
    (handleNote session event tracker isLocal).1 = tracker.noteIsInRange event.note := by
  have h := handleNote_spec session event tracker isLocal
  generalize handleNote session event tracker isLocal = r at h ⊢
  cases h <;> simp_all

/-- The tracker moves by `next`, whatever the session and whoever the player. -/
theorem handleNote_tracker (session : Session) (event : NoteEvent) (tracker : MonophonyTracker)
    (isLocal : Bool) : (handleNote session event tracker isLocal).2.1 = tracker.next event := by
  have h := handleNote_spec session event tracker isLocal
  generalize handleNote session event tracker isLocal = r at h ⊢
  cases h with
  | outside hout => simp [MonophonyTracker.next, hout]
  | doubleTap hin hpress hheld => simp [MonophonyTracker.next, hin, hpress, ← hheld]
  | firstPress hin hpress _ => simp [MonophonyTracker.next, hin, hpress]
  | pressOver hin hpress _ _ => simp [MonophonyTracker.next, hin, hpress]
  | releaseHeld hin hrelease hheld => simp [MonophonyTracker.next, hin, hrelease, hheld]
  | releaseOther hin hrelease hother => simp [MonophonyTracker.next, hin, hrelease, hother]

/-- An event moves nothing of a tracker but the pressed offset. -/
theorem next_eq (tracker : MonophonyTracker) (event : NoteEvent) :
    tracker.next event =
      { tracker with pressedNoteOffset := (tracker.next event).pressedNoteOffset } := by
  unfold MonophonyTracker.next
  split_ifs <;> rfl

@[simp] theorem next_baseKey (tracker : MonophonyTracker) (event : NoteEvent) :
    (tracker.next event).baseKey = tracker.baseKey := by rw [next_eq]

@[simp] theorem next_range (tracker : MonophonyTracker) (event : NoteEvent) :
    (tracker.next event).range = tracker.range := by rw [next_eq]

@[simp] theorem next_synthTranspose (tracker : MonophonyTracker) (event : NoteEvent) :
    (tracker.next event).synthTranspose = tracker.synthTranspose := by rw [next_eq]

/-- The window of a tracker never moves. -/
@[simp] theorem next_noteIsInRange (tracker : MonophonyTracker) (event : NoteEvent)
    (note : Int32) : (tracker.next event).noteIsInRange note = tracker.noteIsInRange note := by
  simp [MonophonyTracker.noteIsInRange]

/-- An event outside the window does nothing at all. -/
theorem handleNote_of_outside {session : Session} {event : NoteEvent}
    {tracker : MonophonyTracker} {isLocal : Bool}
    (hout : tracker.noteIsInRange event.note = false) :
    handleNote session event tracker isLocal = (false, tracker, []) := by
  simp [handleNote, hout]

/-! ### The tracker as a voice -/

/-- The offset that a tracker holds. -/
def MonophonyTracker.held (tracker : MonophonyTracker) : Option Int32 :=
  if 0 ≤ tracker.pressedNoteOffset then some tracker.pressedNoteOffset else none

/-- An event as a gesture of the player whose window it is in. -/
def MonophonyTracker.gesture (tracker : MonophonyTracker) (event : NoteEvent) :
    Option (Voice.Gesture Int32) :=
  if tracker.noteIsInRange event.note then
    some (if event.pressed then .press (event.note - tracker.baseKey)
      else .release (event.note - tracker.baseKey))
  else none

@[simp] theorem next_gesture (tracker : MonophonyTracker) (e e' : NoteEvent) :
    (tracker.next e).gesture e' = tracker.gesture e' := by
  simp [MonophonyTracker.gesture]

/-- **Refinement.** A tracker holds what the monophonic voice holds after the same gesture. -/
theorem held_next (tracker : MonophonyTracker) (event : NoteEvent) :
    (tracker.next event).held = match tracker.gesture event with
      | some g => Voice.next tracker.held g
      | none => tracker.held := by
  cases hin : tracker.noteIsInRange event.note with
  | false => simp [MonophonyTracker.next, MonophonyTracker.gesture, hin]
  | true =>
    have hoffset := (noteIsInRange_iff.mp hin).1
    cases hpress : event.pressed with
    | true =>
      simp [MonophonyTracker.next, MonophonyTracker.gesture, MonophonyTracker.held, Voice.next,
        hin, hpress, hoffset]
    | false =>
      by_cases hheld : tracker.pressedNoteOffset = event.note - tracker.baseKey
      · simp [MonophonyTracker.next, MonophonyTracker.gesture, MonophonyTracker.held, Voice.next,
          hin, hpress, hheld, hoffset]
      · have hne : tracker.held ≠ some (event.note - tracker.baseKey) := by
          simp [MonophonyTracker.held, hheld]
        simp [MonophonyTracker.next, MonophonyTracker.gesture, Voice.next, hin, hpress, hheld, hne]

/-- A second delivery of the same event at once changes nothing. -/
theorem next_next (tracker : MonophonyTracker) (event : NoteEvent) :
    (tracker.next event).next event = tracker.next event := by
  unfold MonophonyTracker.next
  split_ifs <;> simp_all [MonophonyTracker.noteIsInRange]

/-- A tracker that holds nothing or an offset of its window. -/
def MonophonyTracker.Settled (tracker : MonophonyTracker) : Prop :=
  tracker.pressedNoteOffset = -1 ∨
    0 ≤ tracker.pressedNoteOffset ∧ tracker.pressedNoteOffset < tracker.range

/-- Every event leaves a settled tracker settled. -/
theorem MonophonyTracker.Settled.next {tracker : MonophonyTracker} (h : tracker.Settled)
    (event : NoteEvent) : (tracker.next event).Settled := by
  unfold MonophonyTracker.next
  split_ifs with hin hpress hheld
  · exact Or.inr (noteIsInRange_iff.mp hin)
  · exact Or.inl rfl
  · exact h
  · exact h

/-- A settled tracker that holds nothing has the offset -1. -/
theorem MonophonyTracker.Settled.eq_neg_one {tracker : MonophonyTracker} (h : tracker.Settled)
    (hheld : tracker.held = none) : tracker.pressedNoteOffset = -1 := by
  rcases h with h | ⟨h, -⟩
  · exact h
  · simp [held, h] at hheld

/-! ### What a call emits -/

@[simp] theorem notePosts_append (a b : List Effect) :
    notePosts (a ++ b) = notePosts a ++ notePosts b := List.filterMap_append

@[simp] theorem sendCalls_append (a b : List Effect) :
    sendCalls (a ++ b) = sendCalls a ++ sendCalls b := List.filterMap_append

@[simp] theorem keyDispatches_append (a b : List Effect) :
    keyDispatches (a ++ b) = keyDispatches a ++ keyDispatches b := List.filterMap_append

@[simp] theorem keyTrace_append (a b : List Effect) :
    keyTrace (a ++ b) = keyTrace a ++ keyTrace b := by
  simp [keyTrace]

/-- Dispatching key events posts nothing. -/
@[simp] theorem notePosts_dispatchKeys (session : Session) (isLocal : Bool)
    (keyEvents : List KeyEvent) : notePosts (dispatchKeys session isLocal keyEvents) = [] := by
  unfold dispatchKeys
  split <;> rfl

/-- With a key sink, the key events of the local player all reach it, and no others do. -/
theorem keyTrace_dispatchKeys (session : Session) (isLocal : Bool) (keyEvents : List KeyEvent) :
    keyTrace (dispatchKeys session isLocal keyEvents) =
      if isLocal && session.key.isSome then keyEvents else [] := by
  unfold dispatchKeys
  cases keyEvents <;> cases isLocal <;> cases session.key <;> simp [keyTrace, keyDispatches]

/-- The posts of a call: the new note, and the held note when it is replaced or released. -/
def MonophonyTracker.posts (tracker : MonophonyTracker) (isLocal : Bool) (event : NoteEvent) :
    List NotePost :=
  let offset := event.note - tracker.baseKey
  let post : NotePost := ⟨event.pressed, synthChannel isLocal, event.note + tracker.synthTranspose⟩
  let postHeld : NotePost := ⟨false, synthChannel isLocal,
    tracker.pressedNoteOffset + tracker.baseKey + tracker.synthTranspose⟩
  if tracker.noteIsInRange event.note = false then []
  else if tracker.pressedNoteOffset = offset then
    if event.pressed then [] else [post, postHeld]
  else if event.pressed && decide (0 ≤ tracker.pressedNoteOffset) then [post, postHeld]
  else [post]

/-- What a call posts. -/
theorem notePosts_handleNote (session : Session) (event : NoteEvent) (tracker : MonophonyTracker)
    (isLocal : Bool) :
    notePosts (handleNote session event tracker isLocal).2.2 = tracker.posts isLocal event := by
  have h := handleNote_spec session event tracker isLocal
  generalize handleNote session event tracker isLocal = r at h ⊢
  unfold MonophonyTracker.posts
  cases h with
  | outside hout => simp [hout, notePosts]
  | doubleTap hin hpress hheld => simp [hin, hpress, hheld, notePosts]
  | firstPress hin hpress hfree =>
    have hother : tracker.pressedNoteOffset ≠ event.note - tracker.baseKey := by
      intro heq
      exact hfree (heq ▸ (noteIsInRange_iff.mp hin).1)
    rw [notePosts_append, notePosts_dispatchKeys]
    simp [hin, hpress, hfree, hother, notePosts]
  | pressOver hin hpress hother hheld =>
    rw [notePosts_append, notePosts_dispatchKeys]
    simp [hin, hpress, hheld, hother, notePosts]
  | releaseHeld hin hrelease hheld =>
    rw [notePosts_append, notePosts_dispatchKeys]
    simp [hin, hrelease, hheld, notePosts]
  | releaseOther hin hrelease hother => simp [hin, hrelease, hother, notePosts]

/-- A call posts at most two commands. -/
theorem posts_length_le (tracker : MonophonyTracker) (isLocal : Bool) (event : NoteEvent) :
    (tracker.posts isLocal event).length ≤ 2 := by
  unfold MonophonyTracker.posts
  dsimp only
  split_ifs <;> simp

/-- A call posts on the channel of its player only. -/
theorem channel_of_mem_posts {tracker : MonophonyTracker} {isLocal : Bool} {event : NoteEvent}
    {p : NotePost} (hp : p ∈ tracker.posts isLocal event) : p.channel = synthChannel isLocal := by
  unfold MonophonyTracker.posts at hp
  dsimp only at hp
  split_ifs at hp <;> simp at hp
  · rcases hp with rfl | rfl <;> rfl
  · rcases hp with rfl | rfl <;> rfl
  · rw [hp]

/-- A call sends nothing. -/
theorem sendCalls_handleNote (session : Session) (event : NoteEvent) (tracker : MonophonyTracker)
    (isLocal : Bool) : sendCalls (handleNote session event tracker isLocal).2.2 = [] := by
  have hdispatch : ∀ keyEvents, sendCalls (dispatchKeys session isLocal keyEvents) = [] := by
    intro keyEvents
    unfold dispatchKeys
    split <;> rfl
  have h := handleNote_spec session event tracker isLocal
  generalize handleNote session event tracker isLocal = r at h ⊢
  cases h <;> simp only [sendCalls_append, hdispatch] <;> rfl

/-- A switch of an offset as the key event that performs it. -/
def Session.keyEvent (session : Session) (s : Switch Int32) : KeyEvent := ⟨session.code s.key, s.on⟩

/-- The key events of a call are the switches between the offsets held before and after it,
for the local player, and none for the remote one or without a key sink. -/
theorem keyTrace_handleNote (session : Session) (event : NoteEvent) (tracker : MonophonyTracker)
    (isLocal : Bool) :
    keyTrace (handleNote session event tracker isLocal).2.2 =
      if isLocal && session.key.isSome then
        (Voice.edges tracker.held (tracker.next event).held).map session.keyEvent
      else [] := by
  rw [← handleNote_tracker session event tracker isLocal]
  have h := handleNote_spec session event tracker isLocal
  generalize handleNote session event tracker isLocal = r at h ⊢
  cases h with
  | outside _ | doubleTap _ _ _ => simp [Voice.edges, keyTrace, keyDispatches]
  | releaseOther _ _ _ => simp [Voice.edges, keyTrace, keyDispatches]
  | firstPress hin _ hfree =>
    have hoffset := (noteIsInRange_iff.mp hin).1
    rw [keyTrace_append, keyTrace_dispatchKeys]
    simp [Voice.edges, MonophonyTracker.held, hfree, hoffset, keyTrace, keyDispatches,
      Session.keyEvent]
  | pressOver hin _ hother hheld =>
    have hoffset := (noteIsInRange_iff.mp hin).1
    rw [keyTrace_append, keyTrace_dispatchKeys]
    simp [Voice.edges, MonophonyTracker.held, hother, hheld, hoffset, keyTrace, keyDispatches,
      Session.keyEvent]
  | releaseHeld hin _ hheld =>
    have hoffset : 0 ≤ tracker.pressedNoteOffset := by
      rw [hheld]
      exact (noteIsInRange_iff.mp hin).1
    rw [keyTrace_append, keyTrace_dispatchKeys]
    simp [Voice.edges, MonophonyTracker.held, hoffset, keyTrace, keyDispatches, Session.keyEvent]

end Sussybard

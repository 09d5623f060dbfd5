import Sussybard.Commands
import Mathlib.Data.Finset.Card

/-!
# The synth plays one note per player

The posts of a run switch notes on and off on two channels. After every round a
channel sounds exactly the note that its player's tracker holds, no note is
switched on while it sounds, and the new note may overlap the old one for a
moment only. Notes are seen through a function `f`, which is the identity for
the numbers that are posted and the truncation to a byte for what the synth
receives; all that matters is that it tells the notes of one window apart.
-/

namespace Sussybard

open Switching Transducer

variable {κ : Type*}

/-- Posts as switches of notes, seen through `f`. -/
def switches (f : Int32 → κ) (posts : List NotePost) : List (Switch κ) :=
  posts.map fun p => ⟨p.on, f p.note⟩

@[simp] theorem switches_append (f : Int32 → κ) (a b : List NotePost) :
    switches f (a ++ b) = switches f a ++ switches f b := List.map_append

/-- The note of an offset of a tracker, as it is posted when the key is released. -/
def MonophonyTracker.soundOf (tracker : MonophonyTracker) (offset : Int32) : Int32 :=
  tracker.baseKey + offset + tracker.synthTranspose

/-- The note of an event is the note of its offset. -/
theorem note_eq_soundOf (tracker : MonophonyTracker) (note : Int32) :
    note + tracker.synthTranspose = tracker.soundOf (note - tracker.baseKey) := by
  unfold MonophonyTracker.soundOf
  grind

/-- The note that is posted for the held key is the note of its offset. -/
theorem held_eq_soundOf (tracker : MonophonyTracker) (offset : Int32) :
    offset + tracker.baseKey + tracker.synthTranspose = tracker.soundOf offset := by
  unfold MonophonyTracker.soundOf
  grind

/-- What a tracker wants to sound: the note of the offset it holds, if any. -/
def MonophonyTracker.sound (f : Int32 → κ) (tracker : MonophonyTracker) : Finset κ :=
  if 0 ≤ tracker.pressedNoteOffset then {f (tracker.soundOf tracker.pressedNoteOffset)} else ∅

/-- The function `f` tells the notes of the tracker's window apart. -/
def Distinguishes (f : Int32 → κ) (tracker : MonophonyTracker) : Prop :=
  ∀ a b, 0 ≤ a → a < tracker.range → 0 ≤ b → b < tracker.range →
    f (tracker.soundOf a) = f (tracker.soundOf b) → a = b

section Tracker

variable {f : Int32 → κ} {tracker : MonophonyTracker} {event : NoteEvent}

/-- What sounds when an offset is held. -/
theorem sound_of_held (hheld : 0 ≤ tracker.pressedNoteOffset) :
    tracker.sound f = {f (tracker.soundOf tracker.pressedNoteOffset)} := if_pos hheld

/-- Nothing sounds when no offset is held. -/
theorem sound_of_free (hfree : ¬ 0 ≤ tracker.pressedNoteOffset) : tracker.sound f = ∅ :=
  if_neg hfree

/-- A tracker sounds one note at most. -/
theorem card_sound_le : (tracker.sound f).card ≤ 2 := by
  unfold MonophonyTracker.sound
  split_ifs <;> simp

/-- After a press in the window exactly the pressed note sounds. -/
theorem sound_next_of_press (hin : tracker.noteIsInRange event.note = true)
    (hpress : event.pressed = true) :
    (tracker.next event).sound f = {f (tracker.soundOf (event.note - tracker.baseKey))} := by
  have hnext : tracker.next event =
      { tracker with pressedNoteOffset := event.note - tracker.baseKey } := by
    simp [MonophonyTracker.next, hin, hpress]
  rw [hnext]
  exact if_pos (noteIsInRange_iff.mp hin).1

/-- The window of a tracker never moves, so its notes stay apart. -/
theorem Distinguishes.next (h : Distinguishes f tracker) (event : NoteEvent) :
    Distinguishes f (tracker.next event) := by
  simpa [Distinguishes, MonophonyTracker.soundOf] using h

/-- The note of an event in the window is not that of a held key with another offset. -/
theorem eventNote_ne_held (hsettled : tracker.Settled) (hf : Distinguishes f tracker)
    (hin : tracker.noteIsInRange event.note = true)
    (hother : tracker.pressedNoteOffset ≠ event.note - tracker.baseKey)
    (hheld : 0 ≤ tracker.pressedNoteOffset) :
    f (tracker.soundOf (event.note - tracker.baseKey)) ≠
      f (tracker.soundOf tracker.pressedNoteOffset) := by
  obtain ⟨hlow, hhigh⟩ := noteIsInRange_iff.mp hin
  have hrange : tracker.pressedNoteOffset < tracker.range := by
    rcases hsettled with h | h
    · rw [h] at hheld
      exact absurd hheld (by decide)
    · exact h.2
  intro heq
  exact hother (hf _ _ hheld hrange hlow hhigh heq.symm)

end Tracker

variable [DecidableEq κ]

/-- The notes that sound on a channel after a list of posts. -/
def sounding (f : Int32 → κ) (channel : Int32) (posts : List NotePost) : Finset κ :=
  active ∅ (switches f (onChannel channel posts))

/-! ### The posts of one call -/

/-- The switches are clean and move a channel from one set of sounding notes to another. -/
def CleanFromTo (S T : Finset κ) (stream : List (Switch κ)) : Prop :=
  Clean 2 S stream ∧ active S stream = T

/-- A press over a held note: the new note goes on while the old one sounds, then the old one
goes off. -/
theorem cleanFromTo_pressOver {new old : κ} (hne : new ≠ old) :
    CleanFromTo {old} {new} [⟨true, new⟩, ⟨false, old⟩] := by
  have herase : ({new, old} : Finset κ).erase old = {new} := by
    rw [Finset.pair_comm, Finset.erase_insert (by simpa using hne.symm)]
  simp [CleanFromTo, Clean, Switch.apply, herase, hne]

section OneCall

variable {f : Int32 → κ} {tracker : MonophonyTracker} {event : NoteEvent}

/-- The posts of a press in the window. -/
theorem posts_clean_of_press (hsettled : tracker.Settled) (hf : Distinguishes f tracker)
    (isLocal : Bool) (hin : tracker.noteIsInRange event.note = true)
    (hpress : event.pressed = true) :
    CleanFromTo (tracker.sound f) ((tracker.next event).sound f)
      (switches f (tracker.posts isLocal event)) := by
  have hnote := note_eq_soundOf tracker event.note
  have hold := held_eq_soundOf tracker tracker.pressedNoteOffset
  have hlow := (noteIsInRange_iff.mp hin).1
  rw [sound_next_of_press hin hpress]
  by_cases hheld : tracker.pressedNoteOffset = event.note - tracker.baseKey
  · -- A double tap posts nothing, and the pressed note is the one that sounds.
    have hposts : tracker.posts isLocal event = [] := by
      simp [MonophonyTracker.posts, hin, hpress, hheld]
    rw [hposts, sound_of_held (by rwa [hheld]), hheld]
    simp [CleanFromTo, switches, Clean]
  · by_cases hsome : 0 ≤ tracker.pressedNoteOffset
    · have hposts : switches f (tracker.posts isLocal event) =
          [⟨true, f (tracker.soundOf (event.note - tracker.baseKey))⟩,
            ⟨false, f (tracker.soundOf tracker.pressedNoteOffset)⟩] := by
        simp [MonophonyTracker.posts, hin, hpress, hheld, hsome, switches, hnote, hold]
      rw [hposts, sound_of_held hsome]
      exact cleanFromTo_pressOver (eventNote_ne_held hsettled hf hin hheld hsome)
    · have hposts : switches f (tracker.posts isLocal event) =
          [⟨true, f (tracker.soundOf (event.note - tracker.baseKey))⟩] := by
        simp [MonophonyTracker.posts, hin, hpress, hheld, hsome, switches, hnote]
      rw [hposts, sound_of_free hsome]
      simp [CleanFromTo, Clean, Switch.apply]

/-- The posts of a release in the window. -/
theorem posts_clean_of_release (hsettled : tracker.Settled) (hf : Distinguishes f tracker)
    (isLocal : Bool) (hin : tracker.noteIsInRange event.note = true)
    (hrelease : event.pressed = false) :
    CleanFromTo (tracker.sound f) ((tracker.next event).sound f)
      (switches f (tracker.posts isLocal event)) := by
  have hnote := note_eq_soundOf tracker event.note
  have hold := held_eq_soundOf tracker tracker.pressedNoteOffset
  have hlow := (noteIsInRange_iff.mp hin).1
  by_cases hheld : tracker.pressedNoteOffset = event.note - tracker.baseKey
  · -- The release of the held key switches its note off twice.
    have hposts : switches f (tracker.posts isLocal event) =
        [⟨false, f (tracker.soundOf tracker.pressedNoteOffset)⟩,
          ⟨false, f (tracker.soundOf tracker.pressedNoteOffset)⟩] := by
      simp [MonophonyTracker.posts, hin, hrelease, switches, hnote, hold, ← hheld]
    have hnext : tracker.next event = { tracker with pressedNoteOffset := -1 } := by
      simp [MonophonyTracker.next, hin, hrelease, hheld]
    have hsilent : ({ tracker with pressedNoteOffset := -1 } : MonophonyTracker).sound f = ∅ := rfl
    rw [hposts, hnext, hsilent, sound_of_held (by rwa [hheld])]
    simp [CleanFromTo, Clean, Switch.apply]
  · -- The release of another note switches off a note that does not sound.
    have hposts : switches f (tracker.posts isLocal event) =
        [⟨false, f (tracker.soundOf (event.note - tracker.baseKey))⟩] := by
      simp [MonophonyTracker.posts, hin, hrelease, hheld, switches, hnote]
    have hnext : tracker.next event = tracker := by
      simp [MonophonyTracker.next, hin, hrelease, hheld]
    have hkeep : (tracker.sound f).erase (f (tracker.soundOf (event.note - tracker.baseKey))) =
        tracker.sound f := by
      apply Finset.erase_eq_of_notMem
      unfold MonophonyTracker.sound
      split_ifs with hsome
      · simpa using eventNote_ne_held hsettled hf hin hheld hsome
      · simp
    rw [hposts, hnext]
    simp [CleanFromTo, Clean, Switch.apply, hkeep, card_sound_le]

/-- The posts of one call are clean and move the channel from the note that the tracker
held to the note that it holds. -/
theorem posts_clean (hsettled : tracker.Settled) (hf : Distinguishes f tracker) (isLocal : Bool)
    (event : NoteEvent) :
    CleanFromTo (tracker.sound f) ((tracker.next event).sound f)
      (switches f (tracker.posts isLocal event)) := by
  cases hin : tracker.noteIsInRange event.note with
  | false =>
    have hcard : (tracker.sound f).card ≤ 2 := card_sound_le
    simpa [CleanFromTo, MonophonyTracker.posts, MonophonyTracker.next, hin, switches, Clean]
      using hcard
  | true =>
    cases hpress : event.pressed with
    | true => exact posts_clean_of_press hsettled hf isLocal hin hpress
    | false => exact posts_clean_of_release hsettled hf isLocal hin hpress

end OneCall

/-! ### Whole runs -/

/-- What relates a player's tracker to the posts on the player's channel: the posts are clean
and leave sounding what the tracker holds. -/
structure Sounds (f : Int32 → κ) (tracker : MonophonyTracker) (posts : List NotePost) : Prop where
  settled : tracker.Settled
  distinguishes : Distinguishes f tracker
  clean : Clean 2 ∅ (switches f posts)
  active_eq : active ∅ (switches f posts) = tracker.sound f

/-- Every event keeps the relation. -/
theorem Sounds.next {f : Int32 → κ} {tracker : MonophonyTracker} {posts : List NotePost}
    (h : Sounds f tracker posts) (isLocal : Bool) (event : NoteEvent) :
    Sounds f (tracker.next event) (posts ++ tracker.posts isLocal event) := by
  obtain ⟨hclean, hactive⟩ := posts_clean h.settled h.distinguishes isLocal event
  rw [← h.active_eq] at hclean hactive
  exact {
    settled := h.settled.next event
    distinguishes := h.distinguishes.next event
    clean := by
      rw [switches_append]
      exact h.clean.append hclean
    active_eq := by rw [switches_append, active_append, hactive] }

/-- Every run of one player keeps the relation. -/
theorem Sounds.playerRun {f : Int32 → κ} {tracker : MonophonyTracker}
    (hfree : tracker.pressedNoteOffset = -1) (hf : Distinguishes f tracker) (session : Session)
    (isLocal : Bool) (events : List NoteEvent) :
    Sounds f (playerRun session isLocal tracker events).1
      (notePosts (playerRun session isLocal tracker events).2) := by
  let P (tracker : MonophonyTracker) (out : List Effect) : Prop := Sounds f tracker (notePosts out)
  have hstart : P tracker [] := {
    settled := Or.inl hfree
    distinguishes := hf
    clean := by simp [switches, notePosts, Clean]
    active_eq := by
      rw [sound_of_free (by rw [hfree]; decide)]
      rfl }
  have hstep : ∀ tracker out event, P tracker out →
      P (playerStep session isLocal tracker event).1
        (out ++ (playerStep session isLocal tracker event).2) := by
    intro tracker out event h
    simp only [P, playerStep, notePosts_append, notePosts_handleNote, handleNote_tracker]
    exact h.next isLocal event
  exact exec_invariant P hstep hstart events

/-- Every run of the loop keeps the relation for both players. -/
theorem mainLoop_sounds {f : Int32 → κ} (session : Session) {s : LoopState}
    (hrunning : s.running = true) {isLocal : Bool}
    (hfree : (s.tracker isLocal).pressedNoteOffset = -1)
    (hf : Distinguishes f (s.tracker isLocal)) (inputs : List LoopInput) :
    Sounds f ((mainLoop session s inputs).1.tracker isLocal)
      (onChannel (synthChannel isLocal) (notePosts (mainLoop session s inputs).2)) := by
  rw [mainLoop_notePosts session isLocal hrunning,
    (mainLoop_player session isLocal hrunning inputs).1]
  exact Sounds.playerRun hfree hf session isLocal _

/-- Per-player monophony of the synth, with notes seen through `f`: after every round each
channel sounds exactly what its tracker holds; no note is switched on while it sounds on its
channel; and no channel ever sounds more than two notes. -/
def MonophonousSynth (f : Int32 → κ) (session : Session) (s : LoopState)
    (inputs : List LoopInput) : Prop :=
  (∀ n isLocal, let result := mainLoop session s (inputs.take n)
    let tracker := result.1.tracker isLocal
    sounding f (synthChannel isLocal) (notePosts result.2) =
      if 0 ≤ tracker.pressedNoteOffset then
        {f (tracker.baseKey + tracker.pressedNoteOffset + tracker.synthTranspose)}
      else ∅) ∧
  (∀ before p after, notePosts (runMain session s inputs) = before ++ p :: after →
    p.on = true → f p.note ∉ sounding f p.channel before) ∧
  ∀ before after, notePosts (runMain session s inputs) = before ++ after →
    ∀ isLocal, (sounding f (synthChannel isLocal) before).card ≤ 2

/-- The synth is monophonic for each player as soon as the notes of both windows are told apart. -/
theorem monophonousSynth_of_distinguishes {f : Int32 → κ} {session : Session} {s : LoopState}
    (hrunning : s.running = true) (hfree : ∀ isLocal, (s.tracker isLocal).pressedNoteOffset = -1)
    (hf : ∀ isLocal, Distinguishes f (s.tracker isLocal)) (inputs : List LoopInput) :
    MonophonousSynth f session s inputs := by
  have hsounds (isLocal : Bool) (inputs : List LoopInput) :=
    mainLoop_sounds session hrunning (hfree isLocal) (hf isLocal) inputs
  refine ⟨?_, ?_, ?_⟩
  · intro n isLocal
    exact (hsounds isLocal (inputs.take n)).active_eq
  · intro before p after hposts hon
    rw [notePosts_runMain] at hposts
    obtain ⟨isLocal, hchannel⟩ := channel_of_mem_mainLoop (p := p) (by rw [hposts]; simp)
    have hclean := (hsounds isLocal inputs).clean
    rw [hposts, onChannel_append, switches_append] at hclean
    have hcons : switches f (onChannel (synthChannel isLocal) (p :: after)) =
        ⟨p.on, f p.note⟩ :: switches f (onChannel (synthChannel isLocal) after) := by
      simp [onChannel, switches, hchannel]
    rw [hcons] at hclean
    rw [hchannel]
    exact hclean.key_notMem hon
  · intro before after hposts isLocal
    rw [notePosts_runMain] at hposts
    have hclean := (hsounds isLocal inputs).clean
    rw [hposts, onChannel_append, switches_append] at hclean
    exact hclean.card_le

/-- The numbers that are posted tell the notes of any window apart. -/
theorem distinguishes_id (tracker : MonophonyTracker) : Distinguishes id tracker := by
  intro a b _ _ _ _ heq
  simp only [id, MonophonyTracker.soundOf] at heq
  grind

/-- The bytes that the synth receives tell the notes of the instrument's windows apart. -/
theorem distinguishes_noteByte {tracker : MonophonyTracker} (hrange : tracker.range.toInt ≤ 256) :
    Distinguishes noteByte tracker := by
  intro a b ha hahigh hb hbhigh heq
  simp only [noteByte, MonophonyTracker.soundOf, Int32.toUInt32_add, UInt32.toUInt8_add] at heq
  have hbyte : a.toUInt32.toUInt8 = b.toUInt32.toUInt8 := by grind
  have hmod := toNat_lowByte ha
  rw [hbyte, toNat_lowByte hb] at hmod
  rw [Int32.le_iff_toInt_le, Int32.toInt_zero] at ha hb
  rw [Int32.lt_iff_toInt_lt] at hahigh hbhigh
  apply Int32.toInt_inj.mp
  omega

/-- **Monophony per player.** Whatever the windows, bases and transpositions of the trackers,
the posts of a run sound one note per player; and for the windows that `main` sets up this
holds of the bytes that the synth receives as well. -/
theorem synth_monophony :
    (∀ (session : Session) (baseKey range synthTranspose baseKeyUdp rangeUdp
        synthTransposeUdp : Int32) (inputs : List LoopInput),
      MonophonousSynth id session
        ⟨⟨-1, baseKey, range, synthTranspose⟩, ⟨-1, baseKeyUdp, rangeUdp, synthTransposeUdp⟩, true⟩
        inputs) ∧
    ∀ (args : Arguments) (keySink : KeySink) (codeTable : List UInt32) (inputs : List LoopInput),
      MonophonousSynth noteByte (args.session keySink codeTable) args.loopStart inputs := by
  refine ⟨?_, ?_⟩
  · intro session baseKey range synthTranspose baseKeyUdp rangeUdp synthTransposeUdp inputs
    exact monophonousSynth_of_distinguishes rfl (fun isLocal => by cases isLocal <;> rfl)
      (fun _ => distinguishes_id _) inputs
  · intro args keySink codeTable inputs
    have hrange (isLocal : Bool) : (args.loopStart.tracker isLocal).range.toInt ≤ 256 := by
      cases isLocal
      · exact (Octaves.range_le (clampOctaves args.numActiveOctavesUdp)).trans (by decide)
      · exact (Octaves.range_le (clampOctaves args.numActiveOctaves)).trans (by decide)
    exact monophonousSynth_of_distinguishes rfl (fun isLocal => by cases isLocal <;> rfl)
      (fun isLocal => distinguishes_noteByte (hrange isLocal)) inputs

end Sussybard

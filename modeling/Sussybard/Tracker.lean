import Sussybard.KeySink
import Sussybard.General.Voice

/-!
# The monophony tracker and `handle_note`

A bard instrument plays one note at a time, so each player is followed by a
`MonophonyTracker`, which remembers the offset of the pressed note in its window
or -1. `handle_note` moves a tracker and emits what the source does in order:
posts to the synth, reads of the code table, and key events for the local player.
All `int` arithmetic is 32-bit and wraps.
-/

namespace Sussybard

/-- `MIDISource::NoteEvent` -/
structure NoteEvent where
  /-- `note` -/
  note : Int32
  /-- `pressed` -/
  pressed : Bool
  deriving DecidableEq, Repr

/-- `MonophonyTracker`, with its defaults. -/
structure MonophonyTracker where
  /-- `pressed_note_offset` -/
  pressedNoteOffset : Int32 := -1
  /-- `base_key` -/
  baseKey : Int32 := 0
  /-- `range` -/
  range : Int32 := 0
  /-- `synth_transpose` -/
  synthTranspose : Int32 := 0
  deriving DecidableEq, Repr

/-- `MonophonyTracker::note_is_in_range` -/
def MonophonyTracker.noteIsInRange (tracker : MonophonyTracker) (note : Int32) : Bool :=
  let note := note - tracker.baseKey
  decide (0 ≤ note) && decide (note < tracker.range)

/-- A call of `post_note_on` or `post_note_off`. -/
structure NotePost where
  /-- `post_note_on` rather than `post_note_off`. -/
  on : Bool
  /-- `channel` -/
  channel : Int32
  /-- `note` -/
  note : Int32
  deriving DecidableEq, Repr

/-- A call of `UDPSink::send`: its arguments, the byte it hands to `sendto`, its result. -/
structure SendCall where
  /-- `note` -/
  note : Int32
  /-- `pressed` -/
  pressed : Bool
  /-- `msg` -/
  msg : UInt8
  /-- Whether the call returned true. -/
  sent : Bool
  deriving DecidableEq, Repr

/-- What the main thread does while it runs. -/
inductive Effect where
  | send (call : SendCall)
  | post (call : NotePost)
  | readCode (index : Int32)
  | dispatch (events : List KeyEvent)
  deriving DecidableEq, Repr

/-- The posts to the synth among a list of effects. -/
def notePosts (effects : List Effect) : List NotePost :=
  effects.filterMap fun | .post call => some call | _ => none

/-- The calls of `UDPSink::send` among a list of effects. -/
def sendCalls (effects : List Effect) : List SendCall :=
  effects.filterMap fun | .send call => some call | _ => none

/-- The calls of `KeySink::dispatch` among a list of effects. -/
def keyDispatches (effects : List Effect) : List (List KeyEvent) :=
  effects.filterMap fun | .dispatch events => some events | _ => none

/-- The key events passed to `KeySink::dispatch`, in order. -/
def keyTrace (effects : List Effect) : List KeyEvent := (keyDispatches effects).flatten

/-- The indices at which the code table was read. -/
def codeReads (effects : List Effect) : List Int32 :=
  effects.filterMap fun | .readCode index => some index | _ => none

/-- What is fixed before the main loop starts. -/
structure Session where
  /-- `args.midi_transpose` -/
  midiTranspose : Int32
  /-- `code_table` -/
  codeTable : List UInt32
  /-- `key`, null without `--key-sink`. -/
  key : Option KeySink
  /-- Whether `udp_sink` is set. -/
  udpSink : Bool

/-- The entry of the code table for an offset, as `Event::code` receives it. -/
def Session.code (session : Session) (index : Int32) : UInt32 :=
  match session.key with
  | some key => key.toCode (codeAt session.codeTable index)
  | none => codeAt session.codeTable index

/-- A read of the code table, and the key event with the code that was read. -/
def Session.readCode (session : Session) (index : Int32) (press : Bool) : Effect × KeyEvent :=
  (.readCode index, ⟨session.code index, press⟩)

/-- The event has the code at the index. -/
@[simp] theorem Session.readCode_eq (session : Session) (index : Int32) (press : Bool) :
    session.readCode index press = (.readCode index, ⟨session.code index, press⟩) := rfl

/-- `is_local ? 0 : 1` -/
def synthChannel (isLocal : Bool) : Int32 := if isLocal then 0 else 1

/-- The end of `handle_note`: dispatch the key events of the local player, if there are any. -/
def dispatchKeys (session : Session) (isLocal : Bool) (keyEvents : List KeyEvent) : List Effect :=
  if isLocal && session.key.isSome && !keyEvents.isEmpty then [.dispatch keyEvents] else []

/-- `handle_note`: the value returned, the tracker after the call, and the effects. -/
def handleNote (session : Session) (event : NoteEvent) (tracker : MonophonyTracker)
    (isLocal : Bool) : Bool × MonophonyTracker × List Effect :=
  if !tracker.noteIsInRange event.note then (false, tracker, [])
  else
    let noteOffsetLocal := event.note - tracker.baseKey
    -- Ignore weird double taps.
    if event.pressed && tracker.pressedNoteOffset == noteOffsetLocal then (true, tracker, [])
    else
      let channel := synthChannel isLocal
      let posted := Effect.post ⟨event.pressed, channel, event.note + tracker.synthTranspose⟩
      let releaseHeldKey := event.pressed || tracker.pressedNoteOffset == noteOffsetLocal
      -- There is no polyphony, so any pressed key is released before the next one.
      let (tracker₁, released, effects₁) :=
        if releaseHeldKey && decide (0 ≤ tracker.pressedNoteOffset) then
          let (read, e) := session.readCode tracker.pressedNoteOffset false
          ({ tracker with pressedNoteOffset := -1 }, [e],
            [read, Effect.post ⟨false, channel,
              tracker.pressedNoteOffset + tracker.baseKey + tracker.synthTranspose⟩])
        else (tracker, [], [])
      let (tracker₂, pressed, effects₂) :=
        if event.pressed then
          let (read, e) := session.readCode noteOffsetLocal true
          ({ tracker₁ with pressedNoteOffset := noteOffsetLocal }, [e], [read])
        else (tracker₁, [], [])
      (true, tracker₂,
        posted :: effects₁ ++ effects₂ ++ dispatchKeys session isLocal (released ++ pressed))

end Sussybard

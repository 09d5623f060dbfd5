import Sussybard.Tracker
import Sussybard.General.Ring

/-!
# The two MIDI front ends

On Windows the driver calls `midi_callback` for each message, and a queue hands
its note events to `wait_next_note_event`. On Linux `wait_next_note_event` loops
over sequencer events until one is a note. Every access to the queue is made
under its lock, so the callbacks and the waits take effect one after the other;
their order is left open. How ALSA decodes raw bytes is a parameter.
-/

namespace Sussybard

/-- A raw MIDI message. -/
structure MidiMessage where
  /-- The status byte: the kind of message and its channel. -/
  status : UInt8
  /-- The first data byte. -/
  data1 : UInt8
  /-- The second data byte. -/
  data2 : UInt8
  deriving DecidableEq, Repr

/-- A note number as an `int`. -/
def midiNote (byte : UInt8) : Int32 := byte.toUInt32.toInt32

/-! ### Windows -/

/-- The state of `MIDISourceMM`. -/
structure MIDISourceMM where
  /-- `note_queue` -/
  noteQueue : List NoteEvent := []
  deriving DecidableEq, Repr

/-- `MIDISourceMM::key_on` -/
def MIDISourceMM.keyOn (source : MIDISourceMM) (note : Int32) : MIDISourceMM :=
  { source with noteQueue := source.noteQueue ++ [⟨note, true⟩] }

/-- `MIDISourceMM::key_off` -/
def MIDISourceMM.keyOff (source : MIDISourceMM) (note : Int32) : MIDISourceMM :=
  { source with noteQueue := source.noteQueue ++ [⟨note, false⟩] }

/-- `MIDISourceMM::wait_next_note_event`, or `none` as long as it waits. -/
def MIDISourceMM.waitNextNoteEvent (source : MIDISourceMM) : Option (NoteEvent × MIDISourceMM) :=
  match source.noteQueue with
  | [] => none
  | event :: rest => some (event, { source with noteQueue := rest })

/-- `MM_MIM_DATA` -/
def mmMimData : UInt32 := 0x3C3

/-- `midi_callback` -/
def midiCallback (source : MIDISourceMM) (wMsg : UInt32) (dwParam1 : UInt64) : MIDISourceMM :=
  if wMsg == mmMimData then
    let code := (dwParam1 >>> 0).toUInt8
    let note := (dwParam1 >>> 8).toUInt8
    let vel := (dwParam1 >>> 16).toUInt8
    let noteOn := code &&& 0xf0 == 0x90
    let noteOff := code &&& 0xf0 == 0x80
    if noteOn && decide (vel > 0) then source.keyOn (midiNote note)
    else if noteOff || (noteOn && vel == 0) then source.keyOff (midiNote note)
    else source
  else source

/-- A message as `MM_MIM_DATA` carries it, in the three low bytes of its parameter. -/
def MidiMessage.param (message : MidiMessage) (unused : ℕ) : UInt64 :=
  UInt64.ofNat (message.status.toNat + message.data1.toNat * 2 ^ 8 +
    message.data2.toNat * 2 ^ 16 + unused * 2 ^ 24)

/-- What happens to the source, as seen from outside. -/
inductive SourceAction where
  /-- The driver delivers a message. -/
  | deliver (message : MidiMessage)
  /-- The driver reports anything else. -/
  | notify
  /-- `wait_next_note_event` returns an event. -/
  | returns (event : NoteEvent)
  /-- `wait_next_note_event` finds the queue empty and goes on waiting. -/
  | waits
  deriving DecidableEq, Repr

/-- The steps of the driver and of the thread that waits. -/
inductive SourceStep : MIDISourceMM → SourceAction → MIDISourceMM → Prop
  | deliver (source : MIDISourceMM) (message : MidiMessage) (unused : ℕ) :
      SourceStep source (.deliver message) (midiCallback source mmMimData (message.param unused))
  | notify (source : MIDISourceMM) {wMsg : UInt32} (hother : wMsg ≠ mmMimData)
      (dwParam1 : UInt64) :
      SourceStep source .notify (midiCallback source wMsg dwParam1)
  | returns {source source' : MIDISourceMM} {event : NoteEvent}
      (hwait : source.waitNextNoteEvent = some (event, source')) :
      SourceStep source (.returns event) source'
  | waits {source : MIDISourceMM} (hwait : source.waitNextNoteEvent = none) :
      SourceStep source .waits source

/-- Runs of the source, at any interleaving. -/
inductive SourceRun : MIDISourceMM → List SourceAction → MIDISourceMM → Prop
  | nil (source : MIDISourceMM) : SourceRun source [] source
  | concat {source source' source'' : MIDISourceMM} {actions : List SourceAction}
      {action : SourceAction} (hrun : SourceRun source actions source')
      (hstep : SourceStep source' action source'') :
      SourceRun source (actions ++ [action]) source''

/-- The messages delivered in a run. -/
def delivered (actions : List SourceAction) : List MidiMessage :=
  actions.filterMap fun | .deliver message => some message | _ => none

/-- The events that `wait_next_note_event` returned in a run. -/
def returned (actions : List SourceAction) : List NoteEvent :=
  actions.filterMap fun | .returns event => some event | _ => none

/-! ### ALSA -/

/-- The types of sequencer events that the code tells apart. -/
inductive SndSeqEventType where
  /-- `SND_SEQ_EVENT_NOTEON` -/
  | noteOn
  /-- `SND_SEQ_EVENT_NOTEOFF` -/
  | noteOff
  /-- Any other type. -/
  | other (type : UInt8)
  deriving DecidableEq, Repr

/-- `snd_seq_event_t`, with what the code reads of it. -/
structure SndSeqEvent where
  /-- `type` -/
  type : SndSeqEventType
  /-- `data.note.note` -/
  note : UInt8
  /-- `data.note.velocity` -/
  velocity : UInt8
  deriving DecidableEq, Repr

/-- What a call of `snd_seq_event_input` gives: an error or an event. -/
inductive SndSeqInput where
  | failed (ret : Int32)
  | event (ev : SndSeqEvent)
  deriving DecidableEq, Repr

/-- What a call of `wait_next_note_event` comes to on the input at hand. -/
inductive SndSeqWait where
  /-- It waits for more. -/
  | blocked
  /-- It prints the error and returns false. -/
  | failed (ret : Int32) (rest : List SndSeqInput)
  /-- It returns true with an event. -/
  | event (event : NoteEvent) (rest : List SndSeqInput)
  deriving DecidableEq, Repr

/-- `MIDISourceALSA::wait_next_note_event` -/
def MIDISourceALSA.waitNextNoteEvent : List SndSeqInput → SndSeqWait
  | [] => .blocked
  | .failed ret :: rest => .failed ret rest
  | .event ev :: rest =>
    if ev.type == .noteOn && decide (ev.velocity > 0) then .event ⟨midiNote ev.note, true⟩ rest
    else if ev.type == .noteOff || (ev.type == .noteOn && ev.velocity == 0) then
      .event ⟨midiNote ev.note, false⟩ rest
    else waitNextNoteEvent rest

/-- Calls of `wait_next_note_event`, one after the other, return these events before one waits. -/
inductive AlsaReturns : List SndSeqInput → List NoteEvent → Prop
  | blocked {arrivals : List SndSeqInput}
      (hwait : MIDISourceALSA.waitNextNoteEvent arrivals = .blocked) : AlsaReturns arrivals []
  | event {arrivals rest : List SndSeqInput} {event : NoteEvent} {events : List NoteEvent}
      (hwait : MIDISourceALSA.waitNextNoteEvent arrivals = .event event rest)
      (hrest : AlsaReturns rest events) : AlsaReturns arrivals (event :: events)

/-- The status byte is `0x9n`: note on, on one of the 16 channels. -/
def MidiMessage.IsNoteOn (message : MidiMessage) : Prop :=
  0x90 ≤ message.status ∧ message.status ≤ 0x9f

/-- The status byte is `0x8n`: note off, on one of the 16 channels. -/
def MidiMessage.IsNoteOff (message : MidiMessage) : Prop :=
  0x80 ≤ message.status ∧ message.status ≤ 0x8f

instance (message : MidiMessage) : Decidable message.IsNoteOn :=
  inferInstanceAs (Decidable (_ ∧ _))

instance (message : MidiMessage) : Decidable message.IsNoteOff :=
  inferInstanceAs (Decidable (_ ∧ _))

/-- What is relied on of ALSA's decoder of raw bytes: note messages of any channel become note
events with the same note and velocity, and nothing else becomes one. -/
structure DecodesNotes (decode : MidiMessage → List SndSeqEvent) : Prop where
  /-- `0x9n` -/
  noteOn : ∀ message : MidiMessage, message.IsNoteOn →
    decode message = [⟨.noteOn, message.data1, message.data2⟩]
  /-- `0x8n` -/
  noteOff : ∀ message : MidiMessage, message.IsNoteOff →
    decode message = [⟨.noteOff, message.data1, message.data2⟩]
  /-- Any other status byte. -/
  other : ∀ message : MidiMessage, ¬message.IsNoteOn → ¬message.IsNoteOff →
    ∀ ev ∈ decode message, ev.type ≠ .noteOn ∧ ev.type ≠ .noteOff

/-! ### Note events of messages -/

/-- The note event that a message stands for: a note-on message presses its note, or releases it
when the velocity is 0, and a note-off message releases it. -/
def MidiMessage.noteEvent (message : MidiMessage) : Option NoteEvent :=
  if message.IsNoteOn then some ⟨midiNote message.data1, decide (message.data2 ≠ 0)⟩
  else if message.IsNoteOff then some ⟨midiNote message.data1, false⟩
  else none

/-! ### The callback -/

/-- The masks of `midi_callback` find the note-on and the note-off messages of all channels. -/
theorem status_masks (status : UInt8) :
    (status &&& 0xf0 == 0x90) = decide (0x90 ≤ status ∧ status ≤ 0x9f) ∧
      (status &&& 0xf0 == 0x80) = decide (0x80 ≤ status ∧ status ≤ 0x8f) := by
  have hall : ∀ n < 256,
      (UInt8.ofNat n &&& 0xf0 == 0x90) =
          decide (0x90 ≤ UInt8.ofNat n ∧ UInt8.ofNat n ≤ 0x9f) ∧
        (UInt8.ofNat n &&& 0xf0 == 0x80) =
          decide (0x80 ≤ UInt8.ofNat n ∧ UInt8.ofNat n ≤ 0x8f) := by
    decide +kernel
  have h := hall status.toNat status.toNat_lt
  rwa [UInt8.ofNat_toNat] at h

/-- The first of them on a message. -/
theorem mask_eq_noteOn (message : MidiMessage) :
    (message.status &&& 0xf0 == 0x90) = decide message.IsNoteOn :=
  (status_masks message.status).1

/-- And the second. -/
theorem mask_eq_noteOff (message : MidiMessage) :
    (message.status &&& 0xf0 == 0x80) = decide message.IsNoteOff :=
  (status_masks message.status).2

/-- `midi_callback` shifts the bytes of the message out of its parameter. -/
theorem param_bytes (message : MidiMessage) (unused : ℕ) :
    (message.param unused >>> 0).toUInt8 = message.status ∧
      (message.param unused >>> 8).toUInt8 = message.data1 ∧
      (message.param unused >>> 16).toUInt8 = message.data2 := by
  have hstatus := message.status.toNat_lt
  have hdata1 := message.data1.toNat_lt
  have hdata2 := message.data2.toNat_lt
  simp only [← UInt8.toNat_inj, UInt64.toNat_toUInt8, UInt64.toNat_shiftRight, MidiMessage.param,
    UInt64.toNat_ofNat', UInt64.reduceToNat, Nat.reduceMod, Nat.shiftRight_eq_div_pow]
  omega

/-- A velocity is positive when it is not 0. -/
theorem velocity_pos_iff (velocity : UInt8) : velocity > 0 ↔ velocity ≠ 0 := by
  simp only [gt_iff_lt, UInt8.lt_iff_toNat_lt, ne_eq, ← UInt8.toNat_inj, UInt8.reduceToNat]
  omega

/-- A delivered message adds its note event to the queue, if it has one. -/
theorem midiCallback_message (source : MIDISourceMM) (message : MidiMessage) (unused : ℕ) :
    (midiCallback source mmMimData (message.param unused)).noteQueue =
      source.noteQueue ++ message.noteEvent.toList := by
  obtain ⟨hstatus, hdata1, hdata2⟩ := param_bytes message unused
  simp only [midiCallback, beq_self_eq_true, if_true, hstatus, hdata1, hdata2, mask_eq_noteOn,
    mask_eq_noteOff, velocity_pos_iff]
  unfold MidiMessage.noteEvent
  by_cases hon : message.IsNoteOn
  · by_cases hzero : message.data2 = 0
    · simp [hon, hzero, MIDISourceMM.keyOff]
    · simp [hon, hzero, MIDISourceMM.keyOn]
  · by_cases hoff : message.IsNoteOff
    · simp [hon, hoff, MIDISourceMM.keyOff]
    · simp [hon, hoff]

/-- Any other call of `midi_callback` leaves the source alone. -/
theorem midiCallback_other (source : MIDISourceMM) {wMsg : UInt32} (hother : wMsg ≠ mmMimData)
    (dwParam1 : UInt64) : midiCallback source wMsg dwParam1 = source := by
  rw [midiCallback, if_neg (by simpa using hother)]

/-! ### The queue -/

/-- What an action does to the queue. -/
def SourceAction.label : SourceAction → Fifo.Label NoteEvent
  | .deliver message =>
    match message.noteEvent with
    | some event => .put event
    | none => .silent
  | .returns event => .get event
  | .notify | .waits => .silent

/-- **Refinement.** Each step of the source is one of a first-in first-out queue. -/
theorem SourceStep.refines {source source' : MIDISourceMM} {action : SourceAction}
    (h : SourceStep source action source') :
    Fifo.Step source.noteQueue action.label source'.noteQueue := by
  cases h with
  | deliver message unused =>
    rw [midiCallback_message, SourceAction.label]
    cases message.noteEvent with
    | some event => exact .put _ _
    | none =>
      rw [Option.toList_none, List.append_nil]
      exact .silent _
  | notify hother dwParam1 =>
    rw [midiCallback_other source hother]
    exact .silent _
  | returns hwait =>
    unfold MIDISourceMM.waitNextNoteEvent at hwait
    split at hwait
    · cases hwait
    · rename_i event rest hqueue
      obtain ⟨rfl, rfl⟩ := Prod.mk.inj (Option.some.inj hwait)
      rw [hqueue]
      exact .get _ _
  | waits hwait => exact .silent _

/-- So each run is one of the queue. -/
theorem SourceRun.refines {source source' : MIDISourceMM} {actions : List SourceAction}
    (h : SourceRun source actions source') :
    Fifo.Run source.noteQueue (actions.map SourceAction.label) source'.noteQueue := by
  induction h with
  | nil => exact .nil _
  | concat hrun hstep ih =>
    rw [List.map_append]
    exact ih.concat hstep.refines

/-- What the queue gets out in a run is what the waits returned. -/
theorem gets_labels (actions : List SourceAction) :
    (actions.map SourceAction.label).flatMap Fifo.Label.gets = returned actions := by
  induction actions with
  | nil => rfl
  | cons action actions ih =>
    rw [List.map_cons, List.flatMap_cons, ih]
    cases action with
    | deliver message =>
      rw [SourceAction.label]
      cases message.noteEvent with
      | some _ => rfl
      | none => rfl
    | notify | returns _ | waits => rfl

/-- What it takes in are the note events of the messages delivered. -/
theorem puts_labels (actions : List SourceAction) :
    (actions.map SourceAction.label).flatMap Fifo.Label.puts =
      (delivered actions).filterMap MidiMessage.noteEvent := by
  induction actions with
  | nil => rfl
  | cons action actions ih =>
    rw [List.map_cons, List.flatMap_cons, ih]
    cases action with
    | deliver message =>
      have hdelivered : delivered (.deliver message :: actions) =
          message :: delivered actions := rfl
      rw [hdelivered, SourceAction.label]
      cases hevent : message.noteEvent with
      | some event =>
        rw [List.filterMap_cons_some hevent]
        rfl
      | none =>
        rw [List.filterMap_cons_none hevent]
        rfl
    | notify | returns _ | waits => rfl

/-- At every moment, the events returned and those still queued are those of the messages
delivered. -/
theorem SourceRun.conserves {source source' : MIDISourceMM} {actions : List SourceAction}
    (h : SourceRun source actions source') :
    returned actions ++ source'.noteQueue =
      source.noteQueue ++ (delivered actions).filterMap MidiMessage.noteEvent := by
  have hqueue := h.refines.conserves
  rwa [gets_labels, puts_labels] at hqueue

/-! ### The wait loop -/

/-- The note event that the wait loop makes of a sequencer event. -/
def SndSeqEvent.noteEvent (ev : SndSeqEvent) : Option NoteEvent :=
  match ev.type with
  | .noteOn => some ⟨midiNote ev.note, decide (ev.velocity ≠ 0)⟩
  | .noteOff => some ⟨midiNote ev.note, false⟩
  | .other _ => none

/-- The wait loop returns the first event that is a note, and skips those before it. -/
theorem waitNextNoteEvent_event (ev : SndSeqEvent) (rest : List SndSeqInput) :
    MIDISourceALSA.waitNextNoteEvent (.event ev :: rest) =
      match ev.noteEvent with
      | some event => .event event rest
      | none => MIDISourceALSA.waitNextNoteEvent rest := by
  obtain ⟨type, note, velocity⟩ := ev
  rw [MIDISourceALSA.waitNextNoteEvent, SndSeqEvent.noteEvent]
  simp only [velocity_pos_iff]
  cases type with
  | noteOn =>
    by_cases hzero : velocity = 0
    · simp [hzero]
    · simp [hzero]
  | noteOff => simp
  | other type => simp

/-- Successive calls return the note events of all events that arrived, in order. -/
theorem alsaReturns_events (evs : List SndSeqEvent) :
    AlsaReturns (evs.map .event) (evs.filterMap SndSeqEvent.noteEvent) := by
  induction evs with
  | nil => exact .blocked rfl
  | cons ev evs ih =>
    have hwait := waitNextNoteEvent_event ev (evs.map .event)
    rw [List.map_cons]
    cases hevent : ev.noteEvent with
    | some event =>
      rw [hevent] at hwait
      rw [List.filterMap_cons_some hevent]
      exact .event hwait ih
    | none =>
      rw [hevent] at hwait
      rw [List.filterMap_cons_none hevent]
      -- The call that skips this event goes on as a call on the events behind it.
      generalize evs.filterMap SndSeqEvent.noteEvent = events at ih ⊢
      cases ih with
      | blocked hrest => exact .blocked (hwait.trans hrest)
      | event hrest hmore => exact .event (hwait.trans hrest) hmore

/-- What successive calls return is determined by what arrived. -/
theorem AlsaReturns.unique {arrivals : List SndSeqInput} {events events' : List NoteEvent}
    (h : AlsaReturns arrivals events) (h' : AlsaReturns arrivals events') : events = events' := by
  induction h generalizing events' with
  | blocked hwait =>
    cases h' with
    | blocked _ => rfl
    | event hwait' _ => exact absurd (hwait.symm.trans hwait') (by simp)
  | event hwait _ ih =>
    cases h' with
    | blocked hwait' => exact absurd (hwait.symm.trans hwait') (by simp)
    | event hwait' hrest' =>
      obtain ⟨rfl, rfl⟩ := SndSeqWait.event.inj (hwait.symm.trans hwait')
      rw [ih hrest']

/-- The events that ALSA makes of a message have the note event of the message between them. -/
theorem DecodesNotes.noteEvents {decode : MidiMessage → List SndSeqEvent}
    (hdecode : DecodesNotes decode) (message : MidiMessage) :
    (decode message).filterMap SndSeqEvent.noteEvent = message.noteEvent.toList := by
  unfold MidiMessage.noteEvent
  by_cases hon : message.IsNoteOn
  · rw [hdecode.noteOn message hon, if_pos hon]
    rfl
  · by_cases hoff : message.IsNoteOff
    · rw [hdecode.noteOff message hoff, if_neg hon, if_pos hoff]
      rfl
    · rw [if_neg hon, if_neg hoff, Option.toList_none, List.filterMap_eq_nil_iff]
      intro ev hev
      obtain ⟨hnotOn, hnotOff⟩ := hdecode.other message hon hoff ev hev
      rw [SndSeqEvent.noteEvent]
      split
      · contradiction
      · contradiction
      · rfl

/-- The wait loop returns the note events of the messages that arrived. -/
theorem alsaReturns_messages {decode : MidiMessage → List SndSeqEvent}
    (hdecode : DecodesNotes decode) (messages : List MidiMessage) :
    AlsaReturns ((messages.flatMap decode).map .event)
      (messages.filterMap MidiMessage.noteEvent) := by
  have hevents := alsaReturns_events (messages.flatMap decode)
  rw [List.filterMap_flatMap] at hevents
  simp only [hdecode.noteEvents] at hevents
  rwa [← List.filterMap_eq_flatMap_toList] at hevents

/-- **The two front ends agree.** At every moment of every run of the Windows source, whatever the
order of callbacks and waits, the events returned so far followed by those still queued are those
that the ALSA wait loop returns for the messages delivered so far: presses for note-on messages
with a velocity, releases for note-off messages and for note-on messages without, and nothing for
others, on every channel. -/
theorem midi_sources_agree {decode : MidiMessage → List SndSeqEvent}
    (hdecode : DecodesNotes decode) {actions : List SourceAction} {source : MIDISourceMM}
    (hrun : SourceRun {} actions source) :
    (∀ events, AlsaReturns (((delivered actions).flatMap decode).map .event) events ↔
      events = returned actions ++ source.noteQueue) ∧
    returned actions ++ source.noteQueue =
      (delivered actions).filterMap MidiMessage.noteEvent := by
  have hconserves : returned actions ++ source.noteQueue =
      (delivered actions).filterMap MidiMessage.noteEvent := hrun.conserves
  have hreturns := alsaReturns_messages hdecode (delivered actions)
  refine ⟨fun events => ⟨fun hevents => ?_, ?_⟩, hconserves⟩
  · rw [hconserves]
    exact hevents.unique hreturns
  · rintro rfl
    rw [hconserves]
    exact hreturns

/-- A decoder that makes one event of each message: notes, and controllers for the rest. -/
def decodeNotes (message : MidiMessage) : List SndSeqEvent :=
  if message.IsNoteOn then [⟨.noteOn, message.data1, message.data2⟩]
  else if message.IsNoteOff then [⟨.noteOff, message.data1, message.data2⟩]
  else [⟨.other 10, message.data1, message.data2⟩]

/-- The decoder that makes a controller of everything else decodes notes as ALSA does. -/
theorem decodesNotes_decodeNotes : DecodesNotes decodeNotes where
  noteOn message hon := if_pos hon
  noteOff message hoff := by
    have hon : ¬message.IsNoteOn := fun hon =>
      absurd (UInt8.le_trans hon.1 hoff.2) (by decide)
    rw [decodeNotes, if_neg hon, if_pos hoff]
  other message hon hoff ev hev := by
    rw [decodeNotes, if_neg hon, if_neg hoff, List.mem_singleton] at hev
    subst hev
    exact ⟨by simp, by simp⟩

/-- A note is pressed on the fourth channel, read, and released with velocity 0 after a controller
message. On Windows the press has been returned and the release is queued, and the ALSA loop returns
the two. -/
theorem midi_sources_agree_velocity_zero :
    ∃ actions source, SourceRun {} actions source ∧
      delivered actions = [⟨0x93, 60, 100⟩, ⟨0xb3, 1, 2⟩, ⟨0x93, 60, 0⟩] ∧
      returned actions = [⟨60, true⟩] ∧ source.noteQueue = [⟨60, false⟩] ∧
      AlsaReturns (((delivered actions).flatMap decodeNotes).map .event)
        [⟨60, true⟩, ⟨60, false⟩] := by
  have hrun : SourceRun {} [.deliver ⟨0x93, 60, 100⟩, .returns ⟨60, true⟩, .waits,
      .deliver ⟨0xb3, 1, 2⟩, .deliver ⟨0x93, 60, 0⟩] ⟨[⟨60, false⟩]⟩ :=
    (((((SourceRun.nil _).concat (.deliver _ _ 0)).concat (.returns (by rfl))).concat
      (.waits (by rfl))).concat (.deliver _ _ 0)).concat (.deliver _ _ 0)
  exact ⟨_, _, hrun, rfl, rfl, rfl,
    ((midi_sources_agree decodesNotes_decodeNotes hrun).1 _).mpr rfl⟩

end Sussybard

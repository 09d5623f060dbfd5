import Sussybard.Datagrams
import Sussybard.LastPress

/-!
# A sender and a receiver with matching windows

In co-op play one program mirrors the events of its remote window to a second
one, which plays them with its local tracker. The two windows have the same
length, and the receiver's lies where its own transposition moves the sender's.
Then a datagram moves the receiver's local tracker in the same way as the event
moved the sender's remote tracker.
-/

namespace Sussybard

open Transducer

/-- Two configurations whose windows match. The receiver has no UDP sink of its own, and the
sender's remote window, high C included, lies within the seven bits of a datagram. -/
structure MirrorSetup where
  /-- The arguments of the sender. -/
  sender : Arguments
  /-- The arguments of the receiver. -/
  receiver : Arguments
  /-- The key sink of the sender, if it uses one. -/
  senderKeySink : KeySink
  /-- The code table of the sender. -/
  senderTable : List UInt32
  /-- The key sink of the receiver, if it uses one. -/
  receiverKeySink : KeySink
  /-- The code table of the receiver. -/
  receiverTable : List UInt32
  sender_sinks : sender.udpSink ≠ ""
  receiver_listens : receiver.udpSource = true
  receiver_alone : receiver.udpSink = ""
  octaves_eq : clampOctaves receiver.numActiveOctaves = clampOctaves sender.numActiveOctavesUdp
  baseKey_eq : receiver.baseKey = sender.baseKeyUdp + receiver.midiTranspose
  window_low : 0 ≤ sender.baseKeyUdp.toInt
  window_high :
    sender.baseKeyUdp.toInt + 12 * (clampOctaves sender.numActiveOctavesUdp).val.toInt ≤ 127

/-- What the sender sets up. -/
def MirrorSetup.senderSession (setup : MirrorSetup) : Session :=
  setup.sender.session setup.senderKeySink setup.senderTable

/-- What the receiver sets up. -/
def MirrorSetup.receiverSession (setup : MirrorSetup) : Session :=
  setup.receiver.session setup.receiverKeySink setup.receiverTable

/-- The sender mirrors. -/
theorem MirrorSetup.sender_udpSink (setup : MirrorSetup) : setup.senderSession.udpSink = true := by
  simpa [senderSession, Arguments.session] using setup.sender_sinks

/-- The receiver does not. -/
theorem MirrorSetup.receiver_udpSink (setup : MirrorSetup) :
    setup.receiverSession.udpSink = false := by
  simp [receiverSession, Arguments.session, setup.receiver_alone]

/-- Two programs with the default windows: the receiver transposes three octaves down. -/
def MirrorSetup.default : MirrorSetup where
  sender := { udpSink := "host:1234" }
  receiver := { client := "1234", udpSource := true, keySink := true, midiTranspose := -36 }
  senderKeySink := win32KeySink
  senderTable := (initializeBindTable none).getD []
  receiverKeySink := win32KeySink
  receiverTable := (initializeBindTable (some win32KeySink)).getD []
  sender_sinks := by decide
  receiver_listens := rfl
  receiver_alone := rfl
  octaves_eq := rfl
  baseKey_eq := rfl
  window_low := by decide
  window_high := by decide

/-! ### Trackers that are tuned to each other -/

/-- The window of the receiver's tracker is that of the sender's tracker, transposed. -/
structure Tuned (transpose : Int32) (remote localTracker : MonophonyTracker) : Prop where
  range_eq : localTracker.range = remote.range
  baseKey_eq : localTracker.baseKey = remote.baseKey + transpose

/-- The trackers of a setup are tuned. -/
theorem MirrorSetup.tuned (setup : MirrorSetup) :
    Tuned setup.receiver.midiTranspose setup.sender.remoteTracker setup.receiver.localTracker where
  range_eq := congrArg Octaves.range setup.octaves_eq
  baseKey_eq := setup.baseKey_eq

section Tuned

variable {transpose : Int32} {remote localTracker : MonophonyTracker}

/-- A transposed note has the offset that the note has for the sender. -/
theorem Tuned.offset_eq (h : Tuned transpose remote localTracker) (note : Int32) :
    note + transpose - localTracker.baseKey = note - remote.baseKey := by
  rw [h.baseKey_eq]
  grind

/-- A transposed note is in the receiver's window when the note is in the sender's. -/
theorem Tuned.noteIsInRange_eq (h : Tuned transpose remote localTracker) (note : Int32) :
    localTracker.noteIsInRange (note + transpose) = remote.noteIsInRange note := by
  simp only [MonophonyTracker.noteIsInRange, h.offset_eq, h.range_eq]

/-- Trackers stay tuned whatever events they are given. -/
theorem Tuned.next (h : Tuned transpose remote localTracker) (e e' : NoteEvent) :
    Tuned transpose (remote.next e) (localTracker.next e') where
  range_eq := by rw [next_range, next_range, h.range_eq]
  baseKey_eq := by rw [next_baseKey, next_baseKey, h.baseKey_eq]

/-- **Lock step.** Tuned trackers that hold the same offset do so after the same event. -/
theorem Tuned.next_offset (h : Tuned transpose remote localTracker)
    (hoffset : localTracker.pressedNoteOffset = remote.pressedNoteOffset) (event : NoteEvent) :
    (localTracker.next ⟨event.note + transpose, event.pressed⟩).pressedNoteOffset =
      (remote.next event).pressedNoteOffset := by
  unfold MonophonyTracker.next
  simp only [h.noteIsInRange_eq, h.offset_eq, hoffset]
  split_ifs <;> first | rfl | exact hoffset

/-- **Resynchronisation.** After a press in their window tuned trackers hold the same offset,
whatever they held before. -/
theorem Tuned.next_offset_of_press (h : Tuned transpose remote localTracker) {event : NoteEvent}
    (hpress : event.pressed = true) (hin : remote.noteIsInRange event.note = true) :
    (localTracker.next ⟨event.note + transpose, event.pressed⟩).pressedNoteOffset =
      (remote.next event).pressedNoteOffset := by
  simp [MonophonyTracker.next, h.noteIsInRange_eq, h.offset_eq, hpress, hin]

end Tuned

/-! ### Datagrams between the two -/

/-- The datagrams of a loop that were sent without an error. -/
def transmitted (effects : List Effect) : List SendCall :=
  (sendCalls effects).filter SendCall.sent

@[simp] theorem transmitted_append (a b : List Effect) :
    transmitted (a ++ b) = transmitted a ++ transmitted b := by
  simp [transmitted]

/-- The note event that was handed to `UDPSink::send`. -/
def SendCall.event (call : SendCall) : NoteEvent := ⟨call.note, call.pressed⟩

/-- The datagram that a call of `UDPSink::send` produces. -/
def SendCall.datagram (call : SendCall) : List UInt8 := [call.msg]

/-- The event that `wait_next_note_event` reads from a datagram, unless it is empty. -/
def datagramEvent (bytes : List UInt8) : Option NoteEvent := bytes.head?.map noteEventOfByte

/-- A call that the sender can make: its note is in the remote window, and its message is the
one that `UDPSink::send` writes. -/
structure Mirrored (setup : MirrorSetup) (call : SendCall) : Prop where
  inRange : setup.sender.remoteTracker.noteIsInRange call.note = true
  msg_eq : call.msg = udpMessage call.note call.pressed

/-- Every note of the sender's remote window fits in seven bits. -/
theorem MirrorSetup.note_mem (setup : MirrorSetup) {note : Int32}
    (hin : setup.sender.remoteTracker.noteIsInRange note = true) : 0 ≤ note ∧ note ≤ 127 := by
  obtain ⟨hlow, hhigh⟩ := noteIsInRange_iff.mp hin
  have hwindow := setup.window_high
  have hbase := setup.window_low
  have hrange := (clampOctaves setup.sender.numActiveOctavesUdp).range_toInt
  simp only [Arguments.remoteTracker, Int32.le_iff_toInt_le, Int32.lt_iff_toInt_lt, hrange,
    Int32.toInt_zero] at hlow hhigh
  have hnote : note = (note - setup.sender.baseKeyUdp) + setup.sender.baseKeyUdp := by grind
  have htoInt : note.toInt =
      (note - setup.sender.baseKeyUdp).toInt + setup.sender.baseKeyUdp.toInt := by
    conv_lhs => rw [hnote, Int32.toInt_add]
    exact Int.bmod_eq_of_le (by omega) (by omega)
  rw [Int32.le_iff_toInt_le, Int32.le_iff_toInt_le, htoInt]
  simp only [Int32.reduceToInt]
  omega

/-- The receiver reads a mirrored event back as it was sent. -/
theorem Mirrored.datagramEvent_eq {setup : MirrorSetup} {call : SendCall}
    (h : Mirrored setup call) : datagramEvent call.datagram = some call.event := by
  have hback := (noteEventOfByte_udpMessage_iff call.note call.pressed).mpr
    (setup.note_mem h.inRange)
  simp [datagramEvent, SendCall.datagram, h.msg_eq, hback, SendCall.event]

/-- What an iteration of the sender does to its remote tracker and to the network: an event
that is transmitted is mirrored and moves the tracker, and nothing else does. -/
theorem sender_iterate (setup : MirrorSetup) (s : LoopState) (input : LoopInput)
    (hwindow : s.remoteTracker.noteIsInRange = setup.sender.remoteTracker.noteIsInRange) :
    let r := iterate setup.senderSession s input
    (transmitted r.2 = [] ∧ r.1.remoteTracker = s.remoteTracker) ∨
      ∃ call, transmitted r.2 = [call] ∧ Mirrored setup call ∧
        r.1.remoteTracker = s.remoteTracker.next call.event := by
  intro r
  have hround := iterate_spec setup.senderSession s input
  change Round setup.senderSession s input r at hround
  generalize r = r at hround ⊢
  cases hround with
  | stopped _ => exact Or.inl ⟨rfl, rfl⟩
  | sendFailed _ _ _ hret =>
    exact Or.inl ⟨by simp [transmitted, sendCalls, UDPSink.send, hret], rfl⟩
  | mirrored _ hin _ hret =>
    refine Or.inr ⟨setup.senderSession.sendCall input, ?_, ⟨?_, rfl⟩, rfl⟩
    · rw [← List.singleton_append, transmitted_append, transmitted, transmitted,
        sendCalls_handleNote]
      simp [sendCalls, Session.sendCall, UDPSink.send, hret]
    · rw [hwindow] at hin
      exact hin
  | localOnly _ _ _ => exact Or.inl ⟨by simp [transmitted, sendCalls_handleNote], rfl⟩
  | both _ hsink => simp [setup.sender_udpSink] at hsink

end Sussybard

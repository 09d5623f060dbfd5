import Sussybard.HandleNote
import Sussybard.Udp

/-!
# Arguments, configuration and the main loop

`main` clamps the octave counts, sets up one tracker for the local and one for
the remote player, and then handles one note event per iteration until the
source ends or a datagram cannot be sent. Whatever ended the loop, a key that is
still down is released afterwards.
-/

namespace Sussybard

open Transducer

/-- `Arguments`, with its defaults. -/
structure Arguments where
  /-- `client` -/
  client : String := ""
  /-- `udp_sink` -/
  udpSink : String := ""
  /-- `key_sink` -/
  keySink : Bool := false
  /-- `udp_source` -/
  udpSource : Bool := false
  /-- `midi_transpose` -/
  midiTranspose : Int32 := 0
  /-- `synth_transpose` -/
  synthTranspose : Int32 := 12
  /-- `base_key` -/
  baseKey : Int32 := 36
  /-- `num_active_octaves` -/
  numActiveOctaves : Int32 := 3
  /-- `synth_transpose_udp` -/
  synthTransposeUdp : Int32 := 0
  /-- `base_key_udp` -/
  baseKeyUdp : Int32 := 72
  /-- `num_active_octaves_udp` -/
  numActiveOctavesUdp : Int32 := 3
  deriving DecidableEq, Repr

/-- A number of octaves that a bard instrument has. -/
def Octaves : Type := { n : Int32 // 0 ≤ n ∧ n ≤ numOctaves }

/-- `std::max(std::min(n, num_octaves), 0)` -/
def clampOctaves (n : Int32) : Octaves :=
  let lowered := if numOctaves < n then numOctaves else n
  ⟨if lowered < 0 then 0 else lowered, by
    unfold lowered numOctaves
    split_ifs <;> grind⟩

/-- The length of the window that a number of octaves spans, high C included. -/
def Octaves.range (octaves : Octaves) : Int32 := octaves.val * 12 + 1

/-- Window lengths are computed without overflow. -/
theorem Octaves.range_toInt (octaves : Octaves) :
    octaves.range.toInt = octaves.val.toInt * 12 + 1 := by
  obtain ⟨n, hlow, hhigh⟩ := octaves
  have hhigh' := Int32.le_iff_toInt_le.mp hhigh
  simp only [numOctaves, Int32.reduceToInt] at hhigh'
  obtain ⟨k, hk, rfl⟩ := exists_ofNat_of_nonneg hlow
  have hsmall : ∀ k < 4, (Int32.ofNat k * 12 + 1).toInt = (Int32.ofNat k).toInt * 12 + 1 := by
    decide
  exact hsmall k (by omega)

/-- No window is longer than the 37 keys of the instrument. -/
theorem Octaves.range_le (octaves : Octaves) : octaves.range.toInt ≤ 37 := by
  have hhigh := Int32.le_iff_toInt_le.mp octaves.property.2
  simp only [numOctaves, Int32.reduceToInt] at hhigh
  rw [octaves.range_toInt]
  omega

/-- The local tracker as `main` configures it. -/
def Arguments.localTracker (args : Arguments) : MonophonyTracker where
  baseKey := args.baseKey
  range := (clampOctaves args.numActiveOctaves).range
  synthTranspose := args.synthTranspose

/-- The remote tracker as `main` configures it. -/
def Arguments.remoteTracker (args : Arguments) : MonophonyTracker where
  baseKey := args.baseKeyUdp
  range := (clampOctaves args.numActiveOctavesUdp).range
  synthTranspose := args.synthTransposeUdp

/-- What `main` sets up before its loop: the key sink and the UDP sink exist when they were
asked for. The code table is the one that the key sink gave. -/
def Arguments.session (args : Arguments) (keySink : KeySink) (codeTable : List UInt32) :
    Session where
  midiTranspose := args.midiTranspose
  codeTable := codeTable
  key := if args.keySink then some keySink else none
  udpSink := args.udpSink != ""

/-- One round of the loop as the outside provides it: the event that
`wait_next_note_event` returns, and what `sendto` returns if the round comes to it. -/
structure LoopInput where
  /-- The event from the source. -/
  event : NoteEvent
  /-- The value of `sendto`. -/
  sendRet : Int32
  deriving DecidableEq, Repr

/-- The variables of the main loop, and whether it is still running. -/
structure LoopState where
  /-- `local` -/
  localTracker : MonophonyTracker
  /-- `remote` -/
  remoteTracker : MonophonyTracker
  /-- The loop was not left by `break`. -/
  running : Bool := true
  deriving DecidableEq, Repr

/-- The loop before its first round. -/
def Arguments.loopStart (args : Arguments) : LoopState where
  localTracker := args.localTracker
  remoteTracker := args.remoteTracker

/-- The event of a round after `ev.note += args.midi_transpose`. -/
def Session.transpose (session : Session) (event : NoteEvent) : NoteEvent :=
  { event with note := event.note + session.midiTranspose }

/-- Transposing an event leaves the press alone. -/
@[simp] theorem transpose_pressed (session : Session) (event : NoteEvent) :
    (session.transpose event).pressed = event.pressed := rfl

/-- One iteration of the main loop. After a `break` there are no more. -/
def iterate (session : Session) (s : LoopState) (input : LoopInput) : LoopState × List Effect :=
  if !s.running then (s, [])
  else
    let ev := session.transpose input.event
    let sends := s.remoteTracker.noteIsInRange ev.note && session.udpSink
    let call := UDPSink.send ev.note ev.pressed input.sendRet
    let sent := if sends then [Effect.send call] else []
    if sends && !call.sent then ({ s with running := false }, sent)
    else
      let (handled, remoteTracker, effects₁) := handleNote session ev s.remoteTracker false
      if !handled || !session.udpSink then
        let (_, localTracker, effects₂) := handleNote session ev s.localTracker true
        ({ s with localTracker := localTracker, remoteTracker := remoteTracker },
          sent ++ effects₁ ++ effects₂)
      else ({ s with remoteTracker := remoteTracker }, sent ++ effects₁)

/-- The main loop over the rounds that the source provides. -/
def mainLoop (session : Session) (s : LoopState) (inputs : List LoopInput) :
    LoopState × List Effect :=
  exec (iterate session) s inputs

/-- A loop over more rounds goes on where it stands after the first ones. -/
theorem mainLoop_append (session : Session) (s : LoopState) (xs ys : List LoopInput) :
    mainLoop session s (xs ++ ys) =
      ((mainLoop session (mainLoop session s xs).1 ys).1,
        (mainLoop session s xs).2 ++ (mainLoop session (mainLoop session s xs).1 ys).2) :=
  exec_append (iterate session) s xs ys

/-- What follows the loop: release the key that is still down. -/
def releaseAtShutdown (session : Session) (s : LoopState) : List Effect :=
  if session.key.isSome && decide (0 ≤ s.localTracker.pressedNoteOffset) then
    let (read, e) := session.readCode s.localTracker.pressedNoteOffset false
    [read, .dispatch [e]]
  else []

/-- Everything that `main` does from its first round to its end. -/
def runMain (session : Session) (s : LoopState) (inputs : List LoopInput) : List Effect :=
  (mainLoop session s inputs).2 ++ releaseAtShutdown session (mainLoop session s inputs).1

/-! ### What one round does -/

/-- The five ways in which an iteration ends, with everything it does. -/
inductive Round (session : Session) (s : LoopState) (input : LoopInput) :
    LoopState × List Effect → Prop
  | stopped (hstopped : s.running = false) : Round session s input (s, [])
  | sendFailed (hrunning : s.running = true)
      (hin : s.remoteTracker.noteIsInRange (session.transpose input.event).note = true)
      (hsink : session.udpSink = true) (hret : ¬ 0 < input.sendRet) :
      Round session s input ({ s with running := false },
        [.send (UDPSink.send (session.transpose input.event).note input.event.pressed
          input.sendRet)])
  | mirrored (hrunning : s.running = true)
      (hin : s.remoteTracker.noteIsInRange (session.transpose input.event).note = true)
      (hsink : session.udpSink = true) (hret : 0 < input.sendRet) :
      Round session s input
        ({ s with remoteTracker := s.remoteTracker.next (session.transpose input.event) },
          .send (UDPSink.send (session.transpose input.event).note input.event.pressed
            input.sendRet) ::
          (handleNote session (session.transpose input.event) s.remoteTracker false).2.2)
  | localOnly (hrunning : s.running = true)
      (hout : s.remoteTracker.noteIsInRange (session.transpose input.event).note = false)
      (hsink : session.udpSink = true) :
      Round session s input
        ({ s with localTracker := s.localTracker.next (session.transpose input.event) },
          (handleNote session (session.transpose input.event) s.localTracker true).2.2)
  | both (hrunning : s.running = true) (hsink : session.udpSink = false) :
      Round session s input
        ({ s with
            localTracker := s.localTracker.next (session.transpose input.event)
            remoteTracker := s.remoteTracker.next (session.transpose input.event) },
          (handleNote session (session.transpose input.event) s.remoteTracker false).2.2 ++
          (handleNote session (session.transpose input.event) s.localTracker true).2.2)

/-- Every iteration ends in one of the five ways. -/
theorem iterate_spec (session : Session) (s : LoopState) (input : LoopInput) :
    Round session s input (iterate session s input) := by
  cases hrunning : s.running with
  | false => simpa [iterate, hrunning] using Round.stopped hrunning
  | true =>
    cases hsink : session.udpSink with
    | false =>
      have h : Round session s input _ := .both hrunning hsink
      simpa [iterate, hrunning, hsink, handleNote_tracker] using h
    | true =>
      cases hin : s.remoteTracker.noteIsInRange (session.transpose input.event).note with
      | false =>
        have h := Round.localOnly hrunning hin hsink
        simpa [iterate, hrunning, hsink, hin, handleNote_tracker, handleNote_of_outside hin] using h
      | true =>
        by_cases hret : 0 < input.sendRet
        · have h := Round.mirrored hrunning hin hsink hret
          simpa [iterate, hrunning, hsink, hin, hret, handleNote_tracker, handleNote_fst,
            UDPSink.send] using h
        · have h := Round.sendFailed hrunning hin hsink hret
          simpa [iterate, hrunning, hsink, hin, hret, UDPSink.send] using h

end Sussybard

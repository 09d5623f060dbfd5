import Sussybard.Routing

/-!
# The datagrams of a run

A run sends one datagram for each round it comes to whose event is mirrored,
the round of a failing send included. A datagram is read back as the event it
was made from exactly when its note fits in seven bits; the window of the remote
player alone does not see to that, because it may lie anywhere.
-/

namespace Sussybard

open Transducer

/-- The rounds that the loop comes to: those it completes and the one whose send fails. -/
def Session.reached (session : Session) (remote : MonophonyTracker) (inputs : List LoopInput) :
    List LoopInput :=
  inputs.take ((session.completed remote inputs).length + 1)

/-- The rounds of a run whose event is mirrored. -/
def Session.mirroredRounds (session : Session) (remote : MonophonyTracker)
    (inputs : List LoopInput) : List LoopInput :=
  (session.reached remote inputs).filter fun input => session.mirrors remote input.event

/-- The call of `UDPSink::send` for a round. -/
def Session.sendCall (session : Session) (input : LoopInput) : SendCall :=
  let ev := session.transpose input.event
  UDPSink.send ev.note ev.pressed input.sendRet

/-- The round of a failing send is the last one that is reached. -/
theorem reached_cons_of_breaks {session : Session} {remote : MonophonyTracker} {input : LoopInput}
    (hbreaks : session.breaks remote input = true) (inputs : List LoopInput) :
    session.reached remote (input :: inputs) = [input] := by
  simp [Session.reached, Session.completed, hbreaks]

/-- Any other round is followed by the next. -/
theorem reached_cons {session : Session} {remote : MonophonyTracker} {input : LoopInput}
    (hbreaks : session.breaks remote input = false) (inputs : List LoopInput) :
    session.reached remote (input :: inputs) = input :: session.reached remote inputs := by
  simp [Session.reached, Session.completed, hbreaks]

/-- No round moves the remote window, so the same events are mirrored after it. -/
theorem Round.mirrors_eq {session : Session} {s : LoopState} {input : LoopInput}
    {r : LoopState × List Effect} (h : Round session s input r) :
    session.mirrors r.1.remoteTracker = session.mirrors s.remoteTracker := by
  cases h with
  | stopped _ | sendFailed _ _ _ _ | localOnly _ _ _ => rfl
  | mirrored _ _ _ _ | both _ _ => exact mirrors_next _ _ _

/-- Nor does it change which of the later rounds are reached. -/
theorem Round.reached_eq {session : Session} {s : LoopState} {input : LoopInput}
    {r : LoopState × List Effect} (h : Round session s input r) (inputs : List LoopInput) :
    session.reached r.1.remoteTracker inputs = session.reached s.remoteTracker inputs := by
  unfold Session.reached Session.completed Session.breaks
  rw [h.mirrors_eq]

/-- Nor which of them are mirrored. -/
theorem Round.mirroredRounds_eq {session : Session} {s : LoopState} {input : LoopInput}
    {r : LoopState × List Effect} (h : Round session s input r) (inputs : List LoopInput) :
    session.mirroredRounds r.1.remoteTracker inputs =
      session.mirroredRounds s.remoteTracker inputs := by
  rw [Session.mirroredRounds, Session.mirroredRounds, h.reached_eq, h.mirrors_eq]

/-- A round sends its event when it is mirrored. -/
theorem Round.sendCalls_eq {session : Session} {s : LoopState} {input : LoopInput}
    {r : LoopState × List Effect} (h : Round session s input r) (hrunning : s.running = true) :
    sendCalls r.2 =
      if session.mirrors s.remoteTracker input.event then [session.sendCall input] else [] := by
  cases h with
  | stopped hstopped => simp [hrunning] at hstopped
  | sendFailed _ hin hsink _ => simp [Session.mirrors, hin, hsink, sendCalls, Session.sendCall]
  | mirrored _ hin hsink _ =>
    rw [← List.singleton_append, sendCalls_append, sendCalls_handleNote]
    simp [Session.mirrors, hin, hsink, sendCalls, Session.sendCall]
  | localOnly _ hout _ => simp [Session.mirrors, hout, sendCalls_handleNote]
  | both _ hsink => simp [Session.mirrors, hsink, sendCalls_handleNote]

/-- The sends of a run are those of its mirrored rounds. -/
theorem sendCalls_mainLoop (session : Session) {s : LoopState} (hrunning : s.running = true)
    (inputs : List LoopInput) :
    sendCalls (mainLoop session s inputs).2 =
      (session.mirroredRounds s.remoteTracker inputs).map session.sendCall := by
  induction inputs generalizing s with
  | nil => rfl
  | cons input inputs ih =>
    have hround := iterate_spec session s input
    simp only [mainLoop, exec_cons, sendCalls_append] at ih ⊢
    generalize iterate session s input = r at hround ⊢
    have hfirst := hround.sendCalls_eq hrunning
    cases hbreaks : session.breaks s.remoteTracker input with
    | true =>
      have hmirrors : session.mirrors s.remoteTracker input.event = true := by
        unfold Session.breaks at hbreaks
        exact (Bool.and_eq_true _ _ ▸ hbreaks).1
      obtain ⟨call, rfl⟩ := hround.of_breaks hrunning hbreaks
      have hrest := @mainLoop_of_stopped session { s with running := false } rfl inputs
      unfold mainLoop at hrest
      rw [hrest, hfirst, Session.mirroredRounds, reached_cons_of_breaks hbreaks]
      simp [hmirrors, sendCalls]
    | false =>
      have hrest := ih (hround.running hrunning hbreaks)
      rw [hround.mirroredRounds_eq] at hrest
      rw [hfirst, hrest]
      simp only [Session.mirroredRounds, reached_cons hbreaks, List.filter_cons]
      split_ifs with hmirrors
      · rfl
      · rfl

/-- The release after the loop sends nothing. -/
theorem sendCalls_runMain (session : Session) (s : LoopState) (inputs : List LoopInput) :
    sendCalls (runMain session s inputs) = sendCalls (mainLoop session s inputs).2 := by
  rw [runMain, sendCalls_append]
  unfold releaseAtShutdown
  split_ifs <;> simp [sendCalls]

/-- The receiver reads the datagram of a call back as the event that was sent, whatever is
queued behind it. -/
def ReadsBack (call : SendCall) : Prop :=
  ∀ rest, MIDISourceUDP.waitNextNoteEvent (.datagram [call.msg] :: rest) =
    .event ⟨call.note, call.pressed⟩ rest

/-- A call is read back when its note fits in seven bits, and only then. -/
theorem readsBack_send_iff (note : Int32) (pressed : Bool) (ret : Int32) :
    ReadsBack (UDPSink.send note pressed ret) ↔ 0 ≤ note ∧ note ≤ 127 := by
  rw [← noteEventOfByte_udpMessage_iff note pressed]
  simp [ReadsBack, UDPSink.send, MIDISourceUDP.waitNextNoteEvent]

/-- **Decoding undoes encoding** on everything that a run sends exactly when every mirrored
event of the run has a transposed note from 0 to 127. -/
theorem run_reads_back_iff (args : Arguments) (keySink : KeySink) (codeTable : List UInt32)
    (inputs : List LoopInput) :
    let session := args.session keySink codeTable
    (∀ call ∈ sendCalls (runMain session args.loopStart inputs), ReadsBack call) ↔
      ∀ input ∈ session.mirroredRounds args.remoteTracker inputs,
        0 ≤ input.event.note + args.midiTranspose ∧
          input.event.note + args.midiTranspose ≤ 127 := by
  intro session
  rw [sendCalls_runMain, sendCalls_mainLoop session rfl, List.forall_mem_map]
  apply forall₂_congr
  intro input _
  exact readsBack_send_iff _ _ _

/-- With the remote window on top of the MIDI range and a transposition of one octave up, the
release of note 120 is sent as note 132 and read back as a press of note 4. -/
theorem release_read_back_as_press :
    let args : Arguments := { udpSink := "host:1234", midiTranspose := 12, baseKeyUdp := 108 }
    let session := args.session win32KeySink []
    let inputs : List LoopInput := [⟨⟨120, false⟩, 1⟩]
    sendCalls (runMain session args.loopStart inputs) = [⟨132, false, 0x84, true⟩] ∧
      MIDISourceUDP.waitNextNoteEvent [.datagram [0x84]] = .event ⟨4, true⟩ [] ∧
      ¬ ∀ call ∈ sendCalls (runMain session args.loopStart inputs), ReadsBack call := by
  intro args session inputs
  have hcalls : sendCalls (runMain session args.loopStart inputs) = [⟨132, false, 0x84, true⟩] := by
    decide
  have hread : MIDISourceUDP.waitNextNoteEvent [.datagram [0x84]] = .event ⟨4, true⟩ [] := by
    decide
  refine ⟨hcalls, hread, ?_⟩
  intro hall
  rw [hcalls] at hall
  have hback := hall _ (List.mem_singleton_self _) []
  rw [hread] at hback
  exact absurd hback (by decide)

end Sussybard

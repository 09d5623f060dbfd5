import Sussybard.KeyInjection
import Sussybard.MidiQueue

/-!
# The program behind either front end

On Windows the main loop takes its events from the queue while the driver still
adds to it; on Linux it takes them from the sequencer. For the same messages it
posts the same notes, sends the same datagrams and presses the keys of the same
offsets, which have virtual keys there and key codes here, up to what is still in
the queue.
-/

namespace Sussybard

open Transducer

/-! ### Two platforms -/

/-- The same effect in two sessions: the events of a dispatch are for the same offsets, and have
the codes that each session has for them. -/
inductive Effect.Corresponds (windows linux : Session) : Effect → Effect → Prop
  | send (call : SendCall) : Corresponds windows linux (.send call) (.send call)
  | post (call : NotePost) : Corresponds windows linux (.post call) (.post call)
  | readCode (index : Int32) : Corresponds windows linux (.readCode index) (.readCode index)
  | dispatch (keys : List (Int32 × Bool)) :
      Corresponds windows linux
        (.dispatch (keys.map fun key => ⟨windows.code key.1, key.2⟩))
        (.dispatch (keys.map fun key => ⟨linux.code key.1, key.2⟩))

/-- Sessions that differ only in their key sinks and tables. -/
structure Session.Alike (windows linux : Session) : Prop where
  midiTranspose : windows.midiTranspose = linux.midiTranspose
  udpSink : windows.udpSink = linux.udpSink
  key : windows.key.isSome = linux.key.isSome

/-- The same arguments give such sessions. -/
theorem Arguments.session_alike (args : Arguments) (keySink keySink' : KeySink)
    (codeTable codeTable' : List UInt32) :
    (args.session keySink codeTable).Alike (args.session keySink' codeTable') where
  midiTranspose := rfl
  udpSink := rfl
  key := by
    simp only [session]
    split_ifs <;> rfl

section

variable {windows linux : Session}

/-- Key events for the same offsets are dispatched alike. -/
theorem dispatchKeys_corresponds (h : windows.Alike linux) (isLocal : Bool)
    (keys : List (Int32 × Bool)) :
    List.Forall₂ (Effect.Corresponds windows linux)
      (dispatchKeys windows isLocal (keys.map fun key => ⟨windows.code key.1, key.2⟩))
      (dispatchKeys linux isLocal (keys.map fun key => ⟨linux.code key.1, key.2⟩)) := by
  simp only [dispatchKeys, h.key, List.isEmpty_map]
  split_ifs
  · exact .cons (.dispatch keys) .nil
  · exact .nil

/-- Effects without a dispatch are the same in both. -/
theorem forall₂_corresponds {effects : List Effect} (hquiet : keyDispatches effects = []) :
    List.Forall₂ (Effect.Corresponds windows linux) effects effects := by
  induction effects with
  | nil => exact .nil
  | cons effect effects ih =>
    cases effect with
    | send call => exact .cons (.send call) (ih hquiet)
    | post call => exact .cons (.post call) (ih hquiet)
    | readCode index => exact .cons (.readCode index) (ih hquiet)
    | dispatch events => cases hquiet

/-- What a call of `handle_note` does before it dispatches, and the offsets for which it then
dispatches events, are the same in every session. -/
theorem handleNote_effects (event : NoteEvent) (tracker : MonophonyTracker) (isLocal : Bool) :
    ∃ (before : List Effect) (keys : List (Int32 × Bool)), keyDispatches before = [] ∧
      ∀ session, (handleNote session event tracker isLocal).2.2 =
        before ++ dispatchKeys session isLocal
          (keys.map fun key => ⟨session.code key.1, key.2⟩) := by
  let offset := event.note - tracker.baseKey
  let held := tracker.pressedNoteOffset
  let posted := Effect.post
    ⟨event.pressed, synthChannel isLocal, event.note + tracker.synthTranspose⟩
  let released := Effect.post
    ⟨false, synthChannel isLocal, held + tracker.baseKey + tracker.synthTranspose⟩
  cases hin : tracker.noteIsInRange event.note with
  | false => exact ⟨[], [], rfl, fun session => by simp [handleNote, hin]⟩
  | true =>
    have hoffset := (noteIsInRange_iff.mp hin).1
    by_cases hheld : tracker.pressedNoteOffset = event.note - tracker.baseKey
    · cases hpress : event.pressed with
      | true => exact ⟨[], [], rfl, fun session => by simp [handleNote, hin, hpress, hheld]⟩
      | false =>
        refine ⟨[posted, .readCode held, released], [(held, false)], rfl, fun session => ?_⟩
        simp [handleNote, hin, hpress, hheld, hoffset, posted, released, held]
    · cases hpress : event.pressed with
      | true =>
        by_cases hsome : 0 ≤ tracker.pressedNoteOffset
        · refine ⟨[posted, .readCode held, released, .readCode offset],
            [(held, false), (offset, true)], rfl, fun session => ?_⟩
          simp [handleNote, hin, hpress, hheld, hsome, posted, released, held, offset]
        · refine ⟨[posted, .readCode offset], [(offset, true)], rfl, fun session => ?_⟩
          simp [handleNote, hin, hpress, hheld, hsome, posted, offset]
      | false =>
        refine ⟨[posted], [], rfl, fun session => ?_⟩
        simp [handleNote, hin, hpress, hheld, posted]

/-- A call of `handle_note` does the same in both. -/
theorem handleNote_corresponds (h : windows.Alike linux) (event : NoteEvent)
    (tracker : MonophonyTracker) (isLocal : Bool) :
    List.Forall₂ (Effect.Corresponds windows linux)
      (handleNote windows event tracker isLocal).2.2
      (handleNote linux event tracker isLocal).2.2 := by
  obtain ⟨before, keys, hquiet, heffects⟩ := handleNote_effects event tracker isLocal
  rw [heffects, heffects]
  exact List.rel_append (forall₂_corresponds hquiet) (dispatchKeys_corresponds h isLocal keys)

/-- So does a round. -/
theorem iterate_corresponds (h : windows.Alike linux) (s : LoopState) (input : LoopInput) :
    (iterate windows s input).1 = (iterate linux s input).1 ∧
      List.Forall₂ (Effect.Corresponds windows linux) (iterate windows s input).2
        (iterate linux s input).2 := by
  have hevent : windows.transpose input.event = linux.transpose input.event := by
    rw [Session.transpose, Session.transpose, h.midiTranspose]
  have hremote := handleNote_corresponds h (linux.transpose input.event) s.remoteTracker false
  have hlocal := handleNote_corresponds h (linux.transpose input.event) s.localTracker true
  have hsent : ∀ sends call, List.Forall₂ (Effect.Corresponds windows linux)
      (if sends = true then [.send call] else []) (if sends = true then [.send call] else []) :=
    fun sends call => forall₂_corresponds (by split_ifs <;> rfl)
  simp only [iterate, hevent, h.udpSink, handleNote_fst, handleNote_tracker]
  generalize (linux.transpose input.event) = ev at hremote hlocal ⊢
  have hsent := hsent (s.remoteTracker.noteIsInRange ev.note && linux.udpSink)
    (UDPSink.send ev.note ev.pressed input.sendRet)
  -- What is sent is the same in both, whether the round comes to it or not.
  generalize (if (s.remoteTracker.noteIsInRange ev.note && linux.udpSink) = true then _ else []) =
    sent at hsent ⊢
  split_ifs
  · exact ⟨rfl, .nil⟩
  · exact ⟨rfl, hsent⟩
  · exact ⟨rfl, List.rel_append (List.rel_append hsent hremote) hlocal⟩
  · exact ⟨rfl, List.rel_append hsent hremote⟩

/-- So does the main loop. -/
theorem mainLoop_corresponds (h : windows.Alike linux) (s : LoopState) (inputs : List LoopInput) :
    (mainLoop windows s inputs).1 = (mainLoop linux s inputs).1 ∧
      List.Forall₂ (Effect.Corresponds windows linux) (mainLoop windows s inputs).2
        (mainLoop linux s inputs).2 :=
  exec_forall₂ (fun s input => (iterate_corresponds h s input).1)
    (fun s input => (iterate_corresponds h s input).2) s inputs

end

/-! ### Two front ends -/

/-- The rounds of the main loop for these events, when `sendto` returns these numbers. -/
def loopInputs (sendRets : ℕ → Int32) (events : List NoteEvent) : List LoopInput :=
  events.mapIdx fun i event => ⟨event, sendRets i⟩

/-- The rounds of more events follow those of the first ones. -/
theorem loopInputs_append (sendRets : ℕ → Int32) (events more : List NoteEvent) :
    loopInputs sendRets (events ++ more) =
      loopInputs sendRets events ++ loopInputs (fun i => sendRets (i + events.length)) more :=
  List.mapIdx_append

/-- A run of the main loop over more events does what it did over the first ones, and more. -/
theorem mainLoop_prefix (session : Session) (start : LoopState) (sendRets : ℕ → Int32)
    (events more : List NoteEvent) :
    (mainLoop session start (loopInputs sendRets events)).2 <+:
      (mainLoop session start (loopInputs sendRets (events ++ more))).2 := by
  rw [loopInputs_append, mainLoop_append]
  exact List.prefix_append _ _

/-- **Both programs do the same.** At every moment of every run of the Windows front end, at any
interleaving of its driver and its waiting thread, what the main loop has done is the first part of
what it does on Linux for the messages delivered so far, key events for the same offsets included,
whatever the arguments, the layout and the network; and when the queue is empty, it is all of it. -/
theorem front_ends_same_effects {decode : MidiMessage → List SndSeqEvent}
    (hdecode : DecodesNotes decode) {labels : List (Option SourceAction)}
    {s : Monitor.State MIDISourceMM NoteCall} (hrun : QueueRun (.idle {}) labels s)
    {events : List NoteEvent}
    (halsa : AlsaReturns
      (((delivered labels.reduceOption).flatMap decode).map .event) events)
    (args : Arguments) (syms : UInt32 → Option (List UInt8)) (virtualKeys keycodes : List UInt32)
    (sendRets : ℕ → Int32) :
    let windows := args.session win32KeySink virtualKeys
    let linux := args.session (xcbKeySink syms) keycodes
    let onWindows := mainLoop windows args.loopStart
      (loopInputs sendRets (returned labels.reduceOption))
    let onLinux := mainLoop linux args.loopStart (loopInputs sendRets events)
    (∃ first, first <+: onLinux.2 ∧
        List.Forall₂ (Effect.Corresponds windows linux) onWindows.2 first) ∧
      (s.shared.noteQueue = [] → onWindows.1 = onLinux.1 ∧
        List.Forall₂ (Effect.Corresponds windows linux) onWindows.2 onLinux.2) := by
  intro windows linux onWindows onLinux
  have hqueue : returned labels.reduceOption ++ s.shared.noteQueue = events :=
    ((hrun.refines (Monitor.inv_idle _ _)).conserves).trans
      ((alsaReturns_messages hdecode _).unique halsa)
  have halike : windows.Alike linux := args.session_alike _ _ _ _
  have hreturned := mainLoop_corresponds halike args.loopStart
    (loopInputs sendRets (returned labels.reduceOption))
  constructor
  · refine ⟨_, ?_, hreturned.2⟩
    simp only [onLinux, ← hqueue]
    exact mainLoop_prefix _ _ _ _ _
  · intro hempty
    simp only [onLinux, ← hqueue, hempty, List.append_nil]
    exact hreturned

/-- Middle C has been played on both, and its release is still in the queue: Windows has pressed
the virtual key of its offset, and Linux the key code, which in this layout is the character. -/
theorem front_ends_same_effects_pushed :
    let windows := keyArguments.session win32KeySink win32Table
    let linux := keyArguments.session (xcbKeySink characterLayout) characterTable
    ∃ first, first <+: (mainLoop linux keyArguments.loopStart
          [⟨⟨60, true⟩, 1⟩, ⟨⟨64, false⟩, 1⟩]).2 ∧
      List.Forall₂ (Effect.Corresponds windows linux)
        [.post ⟨true, 0, 72⟩, .readCode 24, .dispatch [⟨89, true⟩]] first := by
  intro windows linux
  have halsa : AlsaReturns
      (([middleC.message, releasedE.message].flatMap decodeNotes).map .event)
      [⟨60, true⟩, ⟨64, false⟩] :=
    alsaReturns_messages decodesNotes_decodeNotes [middleC.message, releasedE.message]
  have heffects : (mainLoop windows keyArguments.loopStart [⟨⟨60, true⟩, 1⟩]).2 =
      [.post ⟨true, 0, 72⟩, .readCode 24, .dispatch [⟨89, true⟩]] := by decide
  rw [← heffects]
  exact (front_ends_same_effects decodesNotes_decodeNotes queueRun_pushedE halsa keyArguments
    characterLayout win32Table characterTable fun _ => 1).1

end Sussybard

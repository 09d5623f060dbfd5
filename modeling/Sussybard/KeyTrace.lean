import Sussybard.Routing

/-!
# No key sticks

The key events that reach `KeySink::dispatch` over a whole run alternate: a key
is pressed only when none is down, and only the key that is down is released.
The invariant that carries this says that the trace so far alternates from no
key to the key of the offset that the local tracker holds. The contents of the
code table do not matter.
-/

namespace Sussybard

open Switching Transducer

/-- A key event as a switch of its code. -/
def KeyEvent.toSwitch (e : KeyEvent) : Switch UInt32 := ⟨e.press, e.code⟩

/-- The keys that are down after a list of key events. -/
def keysDown (events : List KeyEvent) : Finset UInt32 := active ∅ (events.map KeyEvent.toSwitch)

/-- The code of the key that a tracker holds. -/
def Session.heldCode (session : Session) (tracker : MonophonyTracker) : Option UInt32 :=
  tracker.held.map session.code

/-- The code of the key held, as a set. -/
theorem heldCode_toFinset (session : Session) (tracker : MonophonyTracker) :
    (session.heldCode tracker).toFinset =
      if 0 ≤ tracker.pressedNoteOffset then {session.code tracker.pressedNoteOffset} else ∅ := by
  unfold Session.heldCode MonophonyTracker.held
  split_ifs <;> rfl

/-- The key events between two offsets alternate between their codes. -/
theorem edges_keyEvent_alternates (session : Session) (a b : Option Int32) :
    Alternates (a.map session.code)
      (((Voice.edges a b).map session.keyEvent).map KeyEvent.toSwitch) (b.map session.code) := by
  rw [List.map_map]
  exact (Voice.edges_alternates a b).map session.code

/-- One tracker and its keys, without the synth. -/
def keyStep (session : Session) (tracker : MonophonyTracker) (event : NoteEvent) :
    MonophonyTracker × List KeyEvent :=
  (tracker.next event,
    (Voice.edges tracker.held (tracker.next event).held).map session.keyEvent)

/-- With a key sink, a run of the local player is seen by the keyboard as a run of `keyStep`. -/
theorem playerRun_keys {session : Session} (hkey : session.key.isSome = true)
    (tracker : MonophonyTracker) (events : List NoteEvent) :
    let r := playerRun session true tracker events
    (r.1, keyTrace r.2) = exec (keyStep session) tracker events := by
  have hview : ∀ (t : MonophonyTracker) (e : NoteEvent),
      ((playerStep session true t e).1, keyTrace (playerStep session true t e).2) =
        keyStep session t e := by
    intro t e
    simp [playerStep, keyStep, keyTrace_handleNote, handleNote_tracker, hkey]
  exact exec_view id keyTrace rfl keyTrace_append hview tracker events

/-- The keys of a tracker alternate from no key to the key held. -/
theorem keyStep_run_alternates (session : Session) {tracker : MonophonyTracker}
    (hfree : tracker.held = none) (events : List NoteEvent) :
    let r := exec (keyStep session) tracker events
    Alternates none (r.2.map KeyEvent.toSwitch) (session.heldCode r.1) := by
  let P (tracker : MonophonyTracker) (keys : List KeyEvent) : Prop :=
    Alternates none (keys.map KeyEvent.toSwitch) (session.heldCode tracker)
  have hstart : P tracker [] := by
    simp only [P, Session.heldCode, hfree]
    exact .nil _
  have hstep : ∀ tracker keys event, P tracker keys →
      P (keyStep session tracker event).1 (keys ++ (keyStep session tracker event).2) := by
    intro tracker keys event h
    simp only [P, List.map_append] at h ⊢
    exact h.append (edges_keyEvent_alternates session _ _)
  exact exec_invariant P hstep hstart events

/-- Likewise for the key events of the loop. -/
theorem mainLoop_keys_alternate {session : Session} (hkey : session.key.isSome = true)
    {s : LoopState} (hrunning : s.running = true) (hfree : s.localTracker.held = none)
    (inputs : List LoopInput) :
    Alternates none ((keyTrace (mainLoop session s inputs).2).map KeyEvent.toSwitch)
      (session.heldCode (mainLoop session s inputs).1.localTracker) := by
  have htracker : (mainLoop session s inputs).1.localTracker = _ :=
    (mainLoop_player session true hrunning inputs).1
  rw [htracker, keyTrace, mainLoop_keyDispatches session hrunning]
  obtain ⟨htracker', hkeys⟩ := Prod.mk.inj (playerRun_keys hkey s.localTracker
    (session.routed s.remoteTracker true inputs))
  have halternates := keyStep_run_alternates session hfree
    (session.routed s.remoteTracker true inputs)
  simp only [← htracker', ← hkeys] at halternates
  exact halternates

/-- The release after the loop alternates from the key held to no key. -/
theorem releaseAtShutdown_alternates {session : Session} (hkey : session.key.isSome = true)
    (s : LoopState) :
    Alternates (session.heldCode s.localTracker)
      ((keyTrace (releaseAtShutdown session s)).map KeyEvent.toSwitch) none := by
  by_cases hheld : 0 ≤ s.localTracker.pressedNoteOffset
  · simp only [Session.heldCode, MonophonyTracker.held, releaseAtShutdown, hkey, hheld]
    exact .release (.nil none)
  · simp only [Session.heldCode, MonophonyTracker.held, releaseAtShutdown, hheld]
    simpa [keyTrace, keyDispatches] using Alternates.nil none

/-- **No key sticks.** With `--key-sink`, for every stream of events and every way in which
the loop ends: after each iteration the keys down are exactly the one of the local offset;
at every moment a key is pressed only when none is down and released only when it is the one
that is down; the whole trace is a sequence of presses each followed by the release of the
same code; and nothing is down at the end. -/
theorem key_trace_alternates (args : Arguments) (keySink : KeySink) (codeTable : List UInt32)
    (inputs : List LoopInput) (hkeys : args.keySink = true) :
    let session := args.session keySink codeTable
    let trace := keyTrace (runMain session args.loopStart inputs)
    (∀ n, let result := mainLoop session args.loopStart (inputs.take n)
      keysDown (keyTrace result.2) =
        if 0 ≤ result.1.localTracker.pressedNoteOffset then
          {keySink.toCode (codeAt codeTable result.1.localTracker.pressedNoteOffset)}
        else ∅) ∧
    (∀ before e after, trace = before ++ e :: after →
      keysDown before = if e.press then ∅ else {e.code}) ∧
    (∃ codes : List UInt32, trace = codes.flatMap fun c => [⟨c, true⟩, ⟨c, false⟩]) ∧
    keysDown trace = ∅ := by
  intro session trace
  have hkey : session.key = some keySink := by simp [session, Arguments.session, hkeys]
  have hsome : session.key.isSome = true := by rw [hkey]; rfl
  have hloop := @mainLoop_keys_alternate session hsome args.loopStart rfl rfl
  have hall : Alternates none (trace.map KeyEvent.toSwitch) none := by
    simp only [trace, runMain, keyTrace_append, List.map_append]
    exact (hloop inputs).append (releaseAtShutdown_alternates hsome _)
  refine ⟨?_, ?_, ?_, hall.active_eq⟩
  · intro n result
    have hcode : ∀ i, session.code i = keySink.toCode (codeAt codeTable i) := by
      intro i
      simp [Session.code, session, Arguments.session, hkeys]
    have hactive := (hloop (inputs.take n)).active_eq
    rw [heldCode_toFinset, hcode] at hactive
    exact hactive
  · intro before e after htrace
    rw [htrace, List.map_append, List.map_cons] at hall
    exact hall.active_before
  · obtain ⟨keys, heq⟩ := hall.eq_pairs
    refine ⟨keys, ?_⟩
    have hinj : Function.Injective KeyEvent.toSwitch := by
      rintro ⟨c, p⟩ ⟨c', p'⟩ h
      simpa [KeyEvent.toSwitch, and_comm] using h
    apply List.map_injective_iff.mpr hinj
    simpa [KeyEvent.toSwitch, List.map_flatMap] using heq

/-- With two notes bound to one code, a press over a held note releases the code before it
presses it again, and the end of the program releases it. -/
theorem key_trace_alternates_same_code :
    let args : Arguments := { keySink := true }
    let trace := keyTrace (runMain (args.session win32KeySink [65, 65]) args.loopStart
      [⟨⟨36, true⟩, 1⟩, ⟨⟨37, true⟩, 1⟩])
    trace = [⟨65, true⟩, ⟨65, false⟩, ⟨65, true⟩, ⟨65, false⟩] ∧ keysDown trace = ∅ := by
  intro args trace
  exact ⟨by decide, (key_trace_alternates args win32KeySink [65, 65] _ rfl).2.2.2⟩

end Sussybard

import Sussybard.Datagrams

/-!
# The players do not interfere

What the local player's keys and channel show, and what the remote player's
datagrams and channel show, depend on different parts of the event stream. With
a UDP sink the remote window decides who gets an event; without one, each
player sees the events of its own window.
-/

namespace Sussybard

open Transducer

/-- What a run shows of the local player: key events, posts and tracker. -/
def localView (session : Session) (s : LoopState) (inputs : List LoopInput) :
    List (List KeyEvent) × List NotePost × MonophonyTracker :=
  (keyDispatches (runMain session s inputs),
    onChannel (synthChannel true) (notePosts (runMain session s inputs)),
    (mainLoop session s inputs).1.localTracker)

/-- What a run shows of the remote player: sends, posts and tracker. -/
def remoteView (session : Session) (s : LoopState) (inputs : List LoopInput) :
    List SendCall × List NotePost × MonophonyTracker :=
  (sendCalls (runMain session s inputs),
    onChannel (synthChannel false) (notePosts (runMain session s inputs)),
    (mainLoop session s inputs).1.remoteTracker)

/-- An event of the source falls in a tracker's window once it is transposed. -/
def Session.plays (session : Session) (tracker : MonophonyTracker) (event : NoteEvent) : Bool :=
  tracker.noteIsInRange (session.transpose event).note

/-- A run of one player does not depend on the events outside the player's window. -/
theorem playerRun_filter (session : Session) (isLocal : Bool) (tracker : MonophonyTracker)
    (events : List NoteEvent) :
    playerRun session isLocal tracker events =
      playerRun session isLocal tracker
        (events.filter fun e => tracker.noteIsInRange e.note) := by
  let I (t : MonophonyTracker) : Prop := t.noteIsInRange = tracker.noteIsInRange
  have hstep : ∀ t e, I t → I (playerStep session isLocal t e).1 := by
    intro t e h
    funext note
    simp only [playerStep, handleNote_tracker, next_noteIsInRange]
    rw [h]
  have hskip : ∀ t (e : NoteEvent), I t → tracker.noteIsInRange e.note = false →
      playerStep session isLocal t e = (t, []) := by
    intro t e h hout
    rw [← h] at hout
    rw [playerStep, handleNote_of_outside hout]
  exact exec_filter hstep hskip rfl events

/-- Two streams with the same events in a player's window give the same run of that player. -/
theorem playerRun_congr {session : Session} {isLocal : Bool} {tracker : MonophonyTracker}
    {xs ys : List NoteEvent}
    (h : xs.filter (session.plays tracker) = ys.filter (session.plays tracker)) :
    playerRun session isLocal tracker (xs.map session.transpose) =
      playerRun session isLocal tracker (ys.map session.transpose) := by
  have hmap (events : List NoteEvent) :
      (events.map session.transpose).filter (fun e => tracker.noteIsInRange e.note) =
        (events.filter (session.plays tracker)).map session.transpose := by
    rw [List.filter_map]
    rfl
  rw [playerRun_filter, playerRun_filter session isLocal tracker (ys.map session.transpose), hmap,
    hmap, h]

/-- The local player is seen through the run of that player alone. -/
theorem localView_congr {session : Session} {s : LoopState} (hrunning : s.running = true)
    {xs ys : List LoopInput}
    (h : playerRun session true s.localTracker (session.routed s.remoteTracker true xs) =
      playerRun session true s.localTracker (session.routed s.remoteTracker true ys)) :
    localView session s xs = localView session s ys := by
  have htracker :
      (mainLoop session s xs).1.localTracker = (mainLoop session s ys).1.localTracker := by
    have hx := (mainLoop_player session true hrunning xs).1
    have hy := (mainLoop_player session true hrunning ys).1
    simp only [LoopState.tracker] at hx hy
    rw [hx, hy, h]
  have hrelease : releaseAtShutdown session (mainLoop session s xs).1 =
      releaseAtShutdown session (mainLoop session s ys).1 := by
    unfold releaseAtShutdown
    rw [htracker]
  unfold localView
  rw [notePosts_runMain, notePosts_runMain, mainLoop_notePosts session true hrunning,
    mainLoop_notePosts session true hrunning, runMain, runMain, keyDispatches_append,
    keyDispatches_append, mainLoop_keyDispatches session hrunning,
    mainLoop_keyDispatches session hrunning, htracker, hrelease, LoopState.tracker, h]

/-- The remote player is seen through the run of that player alone and the mirrored rounds. -/
theorem remoteView_congr {session : Session} {s : LoopState} (hrunning : s.running = true)
    {xs ys : List LoopInput}
    (h : playerRun session false s.remoteTracker (session.routed s.remoteTracker false xs) =
      playerRun session false s.remoteTracker (session.routed s.remoteTracker false ys))
    (hsends : (session.mirroredRounds s.remoteTracker xs).map session.sendCall =
      (session.mirroredRounds s.remoteTracker ys).map session.sendCall) :
    remoteView session s xs = remoteView session s ys := by
  have htracker :
      (mainLoop session s xs).1.remoteTracker = (mainLoop session s ys).1.remoteTracker := by
    have hx := (mainLoop_player session false hrunning xs).1
    have hy := (mainLoop_player session false hrunning ys).1
    simp only [LoopState.tracker] at hx hy
    rw [hx, hy, h]
  unfold remoteView
  rw [notePosts_runMain, notePosts_runMain, mainLoop_notePosts session false hrunning,
    mainLoop_notePosts session false hrunning, sendCalls_runMain, sendCalls_runMain,
    sendCalls_mainLoop session hrunning, sendCalls_mainLoop session hrunning, htracker, hsends,
    LoopState.tracker, h]

/-- When no send fails the sends are those of the mirrored events. -/
theorem mirrored_sendCalls_eq {session : Session} {remote : MonophonyTracker}
    {inputs : List LoopInput} (hok : ∀ input ∈ inputs, 0 < input.sendRet) :
    (session.mirroredRounds remote inputs).map session.sendCall =
      ((inputs.map LoopInput.event).filter (session.mirrors remote)).map
        fun e => session.sendCall ⟨e, 1⟩ := by
  have hreached : session.reached remote inputs = inputs := by
    rw [Session.reached, completed_eq fun input hmem _ => hok input hmem]
    exact List.take_of_length_le (by omega)
  rw [Session.mirroredRounds, hreached, List.filter_map, List.map_map]
  apply List.map_congr_left
  intro input hmem
  have hret := hok input (List.mem_of_mem_filter hmem)
  simp [Session.sendCall, UDPSink.send, hret]

section WithSink

variable {session : Session} {s : LoopState} {xs ys : List LoopInput}

/-- With a UDP sink the events in the remote window are the mirrored ones. -/
theorem mirrors_eq_plays (hsink : session.udpSink = true) (remote : MonophonyTracker) :
    session.mirrors remote = session.plays remote := by
  funext e
  simp [Session.mirrors, Session.plays, hsink]

/-- With a UDP sink the local player depends on the events outside the remote window. -/
theorem localView_eq_of_sink (hrunning : s.running = true) (hsink : session.udpSink = true)
    (hokx : ∀ input ∈ xs, 0 < input.sendRet) (hoky : ∀ input ∈ ys, 0 < input.sendRet)
    (h : (xs.map LoopInput.event).filter (fun e => !session.plays s.remoteTracker e) =
      (ys.map LoopInput.event).filter fun e => !session.plays s.remoteTracker e) :
    localView session s xs = localView session s ys := by
  apply localView_congr hrunning
  rw [routed_local_eq fun input hmem _ => hokx input hmem,
    routed_local_eq fun input hmem _ => hoky input hmem, mirrors_eq_plays hsink, h]

/-- With a UDP sink the remote player depends on the events inside the remote window. -/
theorem remoteView_eq_of_sink (hrunning : s.running = true) (hsink : session.udpSink = true)
    (hokx : ∀ input ∈ xs, 0 < input.sendRet) (hoky : ∀ input ∈ ys, 0 < input.sendRet)
    (h : (xs.map LoopInput.event).filter (session.plays s.remoteTracker) =
      (ys.map LoopInput.event).filter (session.plays s.remoteTracker)) :
    remoteView session s xs = remoteView session s ys := by
  apply remoteView_congr hrunning
  · rw [routed_remote_eq fun input hmem _ => hokx input hmem,
      routed_remote_eq fun input hmem _ => hoky input hmem]
    exact playerRun_congr h
  · rw [mirrored_sendCalls_eq hokx, mirrored_sendCalls_eq hoky, mirrors_eq_plays hsink, h]

end WithSink

section WithoutSink

variable {session : Session} {s : LoopState} {xs ys : List LoopInput}

/-- Without a UDP sink no event is mirrored. -/
theorem mirrors_eq_false (hsink : session.udpSink = false) (remote : MonophonyTracker)
    (event : NoteEvent) : session.mirrors remote event = false := by
  simp [Session.mirrors, hsink]

/-- Without a UDP sink no round sends. -/
theorem mirroredRounds_eq_nil (hsink : session.udpSink = false) (remote : MonophonyTracker)
    (inputs : List LoopInput) : session.mirroredRounds remote inputs = [] := by
  simp [Session.mirroredRounds, mirrors_eq_false hsink]

/-- Without a UDP sink a run sends nothing. -/
theorem sendCalls_eq_nil (hrunning : s.running = true) (hsink : session.udpSink = false)
    (inputs : List LoopInput) : sendCalls (runMain session s inputs) = [] := by
  rw [sendCalls_runMain, sendCalls_mainLoop session hrunning, mirroredRounds_eq_nil hsink,
    List.map_nil]

/-- Without a UDP sink the local player depends on the events in the local window. -/
theorem localView_eq_of_no_sink (hrunning : s.running = true) (hsink : session.udpSink = false)
    (h : (xs.map LoopInput.event).filter (session.plays s.localTracker) =
      (ys.map LoopInput.event).filter (session.plays s.localTracker)) :
    localView session s xs = localView session s ys := by
  apply localView_congr hrunning
  rw [routed_local_eq (by simp [hsink]), routed_local_eq (by simp [hsink])]
  simp only [mirrors_eq_false hsink, Bool.not_false, List.filter_true]
  exact playerRun_congr h

/-- Without a UDP sink the remote player depends on the events in the remote window. -/
theorem remoteView_eq_of_no_sink (hrunning : s.running = true) (hsink : session.udpSink = false)
    (h : (xs.map LoopInput.event).filter (session.plays s.remoteTracker) =
      (ys.map LoopInput.event).filter (session.plays s.remoteTracker)) :
    remoteView session s xs = remoteView session s ys := by
  apply remoteView_congr hrunning
  · rw [routed_remote_eq (by simp [hsink]), routed_remote_eq (by simp [hsink])]
    exact playerRun_congr h
  · rw [mirroredRounds_eq_nil hsink, mirroredRounds_eq_nil hsink]

end WithoutSink

/-- **Noninterference.** With a UDP sink and no failing send, what a run shows of the local
player depends only on the events outside the remote window, and what it shows of the remote
player only on the events inside it. Without a UDP sink nothing is sent, and each player
depends only on the events in its own window. The two windows are any. -/
theorem players_do_not_interfere (session : Session)
    (localTracker remoteTracker : MonophonyTracker) (xs ys : List LoopInput) :
    let s : LoopState := ⟨localTracker, remoteTracker, true⟩
    let events (inputs : List LoopInput) : List NoteEvent := inputs.map LoopInput.event
    let outsideRemote (e : NoteEvent) : Bool := !session.plays remoteTracker e
    (session.udpSink = true → (∀ input ∈ xs ++ ys, 0 < input.sendRet) →
      ((events xs).filter outsideRemote = (events ys).filter outsideRemote →
        localView session s xs = localView session s ys) ∧
      ((events xs).filter (session.plays remoteTracker) =
          (events ys).filter (session.plays remoteTracker) →
        remoteView session s xs = remoteView session s ys)) ∧
    (session.udpSink = false →
      sendCalls (runMain session s xs) = [] ∧
      ((events xs).filter (session.plays localTracker) =
          (events ys).filter (session.plays localTracker) →
        localView session s xs = localView session s ys) ∧
      ((events xs).filter (session.plays remoteTracker) =
          (events ys).filter (session.plays remoteTracker) →
        remoteView session s xs = remoteView session s ys)) := by
  intro s events outsideRemote
  refine ⟨?_, ?_⟩
  · intro hsink hok
    have hokx : ∀ input ∈ xs, 0 < input.sendRet := fun input hmem => hok input (by simp [hmem])
    have hoky : ∀ input ∈ ys, 0 < input.sendRet := fun input hmem => hok input (by simp [hmem])
    refine ⟨?_, ?_⟩
    · intro h
      exact localView_eq_of_sink (s := s) rfl hsink hokx hoky h
    · intro h
      exact remoteView_eq_of_sink (s := s) rfl hsink hokx hoky h
  · intro hsink
    refine ⟨sendCalls_eq_nil rfl hsink xs, ?_, ?_⟩
    · intro h
      exact localView_eq_of_no_sink (s := s) rfl hsink h
    · intro h
      exact remoteView_eq_of_no_sink (s := s) rfl hsink h

/-- With the default windows and a UDP sink, the release of note 36 reaches the local player
in the same way whether or not the remote player plays note 80 in between. -/
theorem players_do_not_interfere_default :
    let args : Arguments := { udpSink := "host:1234", keySink := true }
    let session := args.session win32KeySink [90, 88]
    localView session args.loopStart
        [⟨⟨36, true⟩, 1⟩, ⟨⟨80, true⟩, 1⟩, ⟨⟨36, false⟩, 1⟩, ⟨⟨37, true⟩, 1⟩] =
      localView session args.loopStart [⟨⟨36, true⟩, 1⟩, ⟨⟨36, false⟩, 1⟩, ⟨⟨37, true⟩, 1⟩] := by
  intro args session
  exact ((players_do_not_interfere session args.localTracker args.remoteTracker _ _).1
    (by decide) (by decide)).1 (by decide)

end Sussybard

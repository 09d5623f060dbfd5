import Sussybard.MainLoop
import Mathlib.Data.List.TakeWhile

/-!
# Routing events to the two players

Each player has a tracker and a synth channel, and only the local one has keys.
The main loop hands the remote player every event it comes to, and the local
player those that are not mirrored to a UDP sink. The part of a run that
belongs to a player is the run of that player alone on the events routed there,
so what is known of one tracker carries over to whole runs.
-/

namespace Sussybard

open Transducer

/-- The tracker of the local or of the remote player. -/
def LoopState.tracker (s : LoopState) : Bool → MonophonyTracker
  | true => s.localTracker
  | false => s.remoteTracker

/-- One player alone: what `handle_note` does to the tracker and emits. -/
def playerStep (session : Session) (isLocal : Bool) (tracker : MonophonyTracker)
    (event : NoteEvent) : MonophonyTracker × List Effect :=
  (handleNote session event tracker isLocal).2

/-- The run of one player alone. -/
def playerRun (session : Session) (isLocal : Bool) (tracker : MonophonyTracker)
    (events : List NoteEvent) : MonophonyTracker × List Effect :=
  exec (playerStep session isLocal) tracker events

/-- An event of the source is mirrored: it is sent to the UDP sink, if the send succeeds. -/
def Session.mirrors (session : Session) (remote : MonophonyTracker) (event : NoteEvent) : Bool :=
  remote.noteIsInRange (session.transpose event).note && session.udpSink

/-- The send of a round fails, and with it the loop ends. -/
def Session.breaks (session : Session) (remote : MonophonyTracker) (input : LoopInput) : Bool :=
  session.mirrors remote input.event && !decide (0 < input.sendRet)

/-- The rounds that the loop completes: those before the first failing send. -/
def Session.completed (session : Session) (remote : MonophonyTracker) (inputs : List LoopInput) :
    List LoopInput :=
  inputs.takeWhile fun input => !session.breaks remote input

/-- The transposed events that a run hands to a player. -/
def Session.routed (session : Session) (remote : MonophonyTracker) (isLocal : Bool)
    (inputs : List LoopInput) : List NoteEvent :=
  (((session.completed remote inputs).map LoopInput.event).filter fun event =>
    !(isLocal && session.mirrors remote event)).map session.transpose

/-- The effects that belong to a player: posts on the player's channel, and key events for
the local player. -/
def Effect.isOf (isLocal : Bool) : Effect → Bool
  | .post call => call.channel == synthChannel isLocal
  | .dispatch _ => isLocal
  | .send _ | .readCode _ => false

/-- The part of a list of effects that belongs to a player. -/
def effectsOf (isLocal : Bool) (effects : List Effect) : List Effect :=
  effects.filter (Effect.isOf isLocal)

@[simp] theorem effectsOf_append (isLocal : Bool) (a b : List Effect) :
    effectsOf isLocal (a ++ b) = effectsOf isLocal a ++ effectsOf isLocal b :=
  List.filter_append ..

/-! ### The parts of one call and of one round -/

/-- A call for one player does nothing that belongs to the other. -/
theorem effectsOf_handleNote_other (session : Session) (event : NoteEvent)
    (tracker : MonophonyTracker) (isLocal : Bool) :
    effectsOf (!isLocal) (handleNote session event tracker isLocal).2.2 = [] := by
  have hchannel : synthChannel isLocal ≠ synthChannel (!isLocal) := by
    cases isLocal <;> decide
  have hdispatch : ∀ keyEvents,
      effectsOf (!isLocal) (dispatchKeys session isLocal keyEvents) = [] := by
    intro keyEvents
    unfold dispatchKeys
    cases isLocal with
    | true => split <;> rfl
    | false => rfl
  have h := handleNote_spec session event tracker isLocal
  generalize handleNote session event tracker isLocal = r at h ⊢
  cases h <;> simp only [effectsOf_append, hdispatch] <;>
    simp [effectsOf, hchannel, Effect.isOf]

/-- The window of the remote tracker decides what is mirrored, and it never moves. -/
theorem mirrors_next (session : Session) (remote : MonophonyTracker) (e : NoteEvent) :
    session.mirrors (remote.next e) = session.mirrors remote := by
  funext event
  simp [Session.mirrors]

/-- Likewise for what is routed to a player. -/
theorem routed_next (session : Session) (remote : MonophonyTracker) (e : NoteEvent)
    (isLocal : Bool) (inputs : List LoopInput) :
    session.routed (remote.next e) isLocal inputs = session.routed remote isLocal inputs := by
  unfold Session.routed Session.completed Session.breaks
  rw [mirrors_next]

/-- Rounds after a failing send are not routed to anybody. -/
theorem routed_cons_of_breaks {session : Session} {remote : MonophonyTracker} {input : LoopInput}
    (hbreaks : session.breaks remote input = true) (isLocal : Bool) (inputs : List LoopInput) :
    session.routed remote isLocal (input :: inputs) = [] := by
  simp [Session.routed, Session.completed, hbreaks]

/-- A completed round is routed to a player unless the player is local and it is mirrored. -/
theorem routed_cons {session : Session} {remote : MonophonyTracker} {input : LoopInput}
    (hbreaks : session.breaks remote input = false) (isLocal : Bool) (inputs : List LoopInput) :
    session.routed remote isLocal (input :: inputs) =
      (if isLocal && session.mirrors remote input.event then []
        else [session.transpose input.event]) ++ session.routed remote isLocal inputs := by
  unfold Session.routed Session.completed
  rw [List.takeWhile_cons_of_pos (by simp [hbreaks]), List.map_cons]
  cases h : isLocal && session.mirrors remote input.event with
  | true => rw [List.filter_cons_of_neg (by simp [h])]; rfl
  | false => rw [List.filter_cons_of_pos (by simp [h])]; rfl

/-- A round that is not the last one leaves a player alone when the player is local and the
round is mirrored, and is otherwise one step of that player. -/
theorem Round.player {session : Session} {s : LoopState} {input : LoopInput}
    {r : LoopState × List Effect} (h : Round session s input r) (hrunning : s.running = true)
    (hbreaks : session.breaks s.remoteTracker input = false) (isLocal : Bool) :
    (r.1.tracker isLocal, effectsOf isLocal r.2) =
      if isLocal && session.mirrors s.remoteTracker input.event then (s.tracker isLocal, [])
      else
        let event := session.transpose input.event
        ((s.tracker isLocal).next event,
          effectsOf isLocal (playerStep session isLocal (s.tracker isLocal) event).2) := by
  cases h with
  | stopped hstopped => simp [hrunning] at hstopped
  | sendFailed _ hin hsink hret =>
    simp [Session.breaks, Session.mirrors, hin, hsink, hret] at hbreaks
  | mirrored _ hin hsink _ =>
    have hmirrors : session.mirrors s.remoteTracker input.event = true := by
      simp [Session.mirrors, hin, hsink]
    rw [← List.singleton_append, effectsOf_append]
    cases isLocal with
    | true =>
      have hother := effectsOf_handleNote_other session (session.transpose input.event)
        s.remoteTracker false
      rw [Bool.not_false] at hother
      rw [hother]
      simp [hmirrors, LoopState.tracker, effectsOf, Effect.isOf]
    | false => simp [LoopState.tracker, effectsOf, Effect.isOf, playerStep]
  | localOnly _ hout _ =>
    have hmirrors : session.mirrors s.remoteTracker input.event = false := by
      simp [Session.mirrors, hout]
    cases isLocal with
    | true => simp [hmirrors, LoopState.tracker, playerStep]
    | false =>
      have hother := effectsOf_handleNote_other session (session.transpose input.event)
        s.localTracker true
      rw [Bool.not_true] at hother
      have hstay : s.remoteTracker.next (session.transpose input.event) = s.remoteTracker := by
        simp [MonophonyTracker.next, hout]
      rw [hother]
      simp [LoopState.tracker, hstay, playerStep, handleNote_of_outside hout, effectsOf]
  | both _ hsink =>
    have hmirrors : session.mirrors s.remoteTracker input.event = false := by
      simp [Session.mirrors, hsink]
    rw [effectsOf_append]
    cases isLocal with
    | true =>
      have hother := effectsOf_handleNote_other session (session.transpose input.event)
        s.remoteTracker false
      rw [Bool.not_false] at hother
      simp [hmirrors, hother, LoopState.tracker, playerStep]
    | false =>
      have hother := effectsOf_handleNote_other session (session.transpose input.event)
        s.localTracker true
      rw [Bool.not_true] at hother
      simp [hother, LoopState.tracker, playerStep]

/-- The round of a failing send stops the loop, and nothing in it belongs to a player. -/
theorem Round.of_breaks {session : Session} {s : LoopState} {input : LoopInput}
    {r : LoopState × List Effect} (h : Round session s input r) (hrunning : s.running = true)
    (hbreaks : session.breaks s.remoteTracker input = true) :
    ∃ call, r = ({ s with running := false }, [.send call]) := by
  simp only [Session.breaks, Session.mirrors, Bool.and_eq_true, Bool.not_eq_true',
    decide_eq_false_iff_not] at hbreaks
  cases h with
  | stopped hstopped => simp [hrunning] at hstopped
  | sendFailed _ _ _ _ => exact ⟨_, rfl⟩
  | mirrored _ _ _ hret => exact absurd hret hbreaks.2
  | localOnly _ hout _ => simp [hout] at hbreaks
  | both _ hsink => simp [hsink] at hbreaks

/-- A round that is not the last one keeps the loop running. -/
theorem Round.running {session : Session} {s : LoopState} {input : LoopInput}
    {r : LoopState × List Effect} (h : Round session s input r) (hrunning : s.running = true)
    (hbreaks : session.breaks s.remoteTracker input = false) : r.1.running = true := by
  cases h with
  | sendFailed _ hin hsink hret =>
    simp [Session.breaks, Session.mirrors, hin, hsink, hret] at hbreaks
  | stopped _ | mirrored _ _ _ _ | localOnly _ _ _ | both _ _ => exact hrunning

/-- No round moves the remote window, so routing is the same after it. -/
theorem Round.routed_eq {session : Session} {s : LoopState} {input : LoopInput}
    {r : LoopState × List Effect} (h : Round session s input r) (isLocal : Bool)
    (inputs : List LoopInput) :
    session.routed r.1.remoteTracker isLocal inputs =
      session.routed s.remoteTracker isLocal inputs := by
  cases h with
  | stopped _ | sendFailed _ _ _ _ | localOnly _ _ _ => rfl
  | mirrored _ _ _ _ | both _ _ => exact routed_next _ _ _ _ _

/-! ### Whole runs -/

/-- A loop that was left does nothing more. -/
theorem mainLoop_of_stopped {session : Session} {s : LoopState} (hstopped : s.running = false)
    (inputs : List LoopInput) : mainLoop session s inputs = (s, []) := by
  induction inputs with
  | nil => rfl
  | cons input inputs ih =>
    have hiterate : iterate session s input = (s, []) := by simp [iterate, hstopped]
    unfold mainLoop at ih ⊢
    rw [exec_cons, hiterate, ih]
    rfl

/-- A run of one player step by step. -/
theorem playerRun_cons (session : Session) (isLocal : Bool) (tracker : MonophonyTracker)
    (event : NoteEvent) (events : List NoteEvent) :
    playerRun session isLocal tracker (event :: events) =
      ((playerRun session isLocal (tracker.next event) events).1,
        (playerStep session isLocal tracker event).2 ++
          (playerRun session isLocal (tracker.next event) events).2) := by
  have hstep : (playerStep session isLocal tracker event).1 = tracker.next event :=
    handleNote_tracker session event tracker isLocal
  unfold playerRun
  rw [exec_cons, hstep]

/-- **Projection.** The part of a run of the loop that belongs to a player is the run of that
player alone on the events that are routed there. -/
theorem mainLoop_player (session : Session) (isLocal : Bool) {s : LoopState}
    (hrunning : s.running = true) (inputs : List LoopInput) :
    let alone := playerRun session isLocal (s.tracker isLocal)
      (session.routed s.remoteTracker isLocal inputs)
    (mainLoop session s inputs).1.tracker isLocal = alone.1 ∧
      effectsOf isLocal (mainLoop session s inputs).2 = effectsOf isLocal alone.2 := by
  induction inputs generalizing s with
  | nil => exact ⟨rfl, rfl⟩
  | cons input inputs ih =>
    have hround := iterate_spec session s input
    simp only [mainLoop, exec_cons, effectsOf_append] at ih ⊢
    generalize iterate session s input = r at hround ⊢
    cases hbreaks : session.breaks s.remoteTracker input with
    | true =>
      obtain ⟨call, rfl⟩ := hround.of_breaks hrunning hbreaks
      rw [routed_cons_of_breaks hbreaks]
      have hrest := @mainLoop_of_stopped session { s with running := false } rfl inputs
      unfold mainLoop at hrest
      rw [hrest]
      exact ⟨by cases isLocal <;> rfl, by cases isLocal <;> rfl⟩
    | false =>
      have hplayer := hround.player hrunning hbreaks isLocal
      have hrest := ih (hround.running hrunning hbreaks)
      rw [hround.routed_eq] at hrest
      rw [routed_cons hbreaks, hrest.1, hrest.2]
      split_ifs at hplayer ⊢
      · obtain ⟨htracker, heffects⟩ := Prod.mk.inj hplayer
        simp [htracker, heffects]
      · obtain ⟨htracker, heffects⟩ := Prod.mk.inj hplayer
        rw [List.singleton_append, playerRun_cons, effectsOf_append, htracker, heffects]
        exact ⟨rfl, rfl⟩

/-! ### What the synth and the keyboard see of a player -/

/-- The posts on one channel. -/
def onChannel (channel : Int32) (posts : List NotePost) : List NotePost :=
  posts.filter fun p => p.channel = channel

@[simp] theorem onChannel_append (channel : Int32) (a b : List NotePost) :
    onChannel channel (a ++ b) = onChannel channel a ++ onChannel channel b :=
  List.filter_append ..

/-- The posts that belong to a player are those on the player's channel. -/
theorem notePosts_effectsOf (isLocal : Bool) (effects : List Effect) :
    notePosts (effectsOf isLocal effects) =
      onChannel (synthChannel isLocal) (notePosts effects) := by
  unfold notePosts effectsOf onChannel
  rw [List.filterMap_filter, List.filter_filterMap]
  congr 1
  funext e
  cases e with
  | post call =>
    by_cases h : call.channel = synthChannel isLocal <;> simp [Effect.isOf, h, Option.filter]
  | send _ | readCode _ | dispatch _ => cases isLocal <;> rfl

/-- All key events belong to the local player. -/
theorem keyDispatches_effectsOf (effects : List Effect) :
    keyDispatches (effectsOf true effects) = keyDispatches effects := by
  unfold keyDispatches effectsOf
  rw [List.filterMap_filter]
  congr 1
  funext e
  cases e with
  | post _ => simp
  | send _ | readCode _ | dispatch _ => rfl

/-- The posts of one player's run, step by step. -/
theorem notePosts_playerRun_cons (session : Session) (isLocal : Bool) (tracker : MonophonyTracker)
    (event : NoteEvent) (events : List NoteEvent) :
    notePosts (playerRun session isLocal tracker (event :: events)).2 =
      tracker.posts isLocal event ++
        notePosts (playerRun session isLocal (tracker.next event) events).2 := by
  rw [playerRun_cons, notePosts_append]
  exact congrArg (· ++ _) (notePosts_handleNote session event tracker isLocal)

/-- All posts of a player's run are on the player's channel. -/
theorem channel_of_mem_playerRun {session : Session} {isLocal : Bool} {tracker : MonophonyTracker}
    {events : List NoteEvent} {p : NotePost}
    (hp : p ∈ notePosts (playerRun session isLocal tracker events).2) :
    p.channel = synthChannel isLocal := by
  induction events generalizing tracker with
  | nil => simp [playerRun, notePosts] at hp
  | cons event events ih =>
    rw [notePosts_playerRun_cons, List.mem_append] at hp
    exact hp.elim channel_of_mem_posts ih

/-- A player's tracker is moved by the events one after the other. -/
theorem playerRun_tracker (session : Session) (isLocal : Bool) (tracker : MonophonyTracker)
    (events : List NoteEvent) :
    (playerRun session isLocal tracker events).1 = events.foldl MonophonyTracker.next tracker := by
  induction events generalizing tracker with
  | nil => rfl
  | cons event events ih => rw [playerRun_cons, List.foldl_cons, ih]

/-- The posts of a run on a player's channel are the posts of that player's run. -/
theorem mainLoop_notePosts (session : Session) (isLocal : Bool) {s : LoopState}
    (hrunning : s.running = true) (inputs : List LoopInput) :
    onChannel (synthChannel isLocal) (notePosts (mainLoop session s inputs).2) =
      notePosts (playerRun session isLocal (s.tracker isLocal)
        (session.routed s.remoteTracker isLocal inputs)).2 := by
  rw [← notePosts_effectsOf, (mainLoop_player session isLocal hrunning inputs).2,
    notePosts_effectsOf]
  apply List.filter_eq_self.mpr
  intro p hp
  simpa using channel_of_mem_playerRun hp

/-- The key events of a run are those of the local player's run. -/
theorem mainLoop_keyDispatches (session : Session) {s : LoopState} (hrunning : s.running = true)
    (inputs : List LoopInput) :
    keyDispatches (mainLoop session s inputs).2 =
      keyDispatches (playerRun session true s.localTracker
        (session.routed s.remoteTracker true inputs)).2 := by
  rw [← keyDispatches_effectsOf, (mainLoop_player session true hrunning inputs).2,
    keyDispatches_effectsOf]
  rfl

/-- Every post of the loop is on the channel of one of the two players. -/
theorem channel_of_mem_mainLoop {session : Session} {s : LoopState} {inputs : List LoopInput}
    {p : NotePost} (hp : p ∈ notePosts (mainLoop session s inputs).2) :
    ∃ isLocal, p.channel = synthChannel isLocal := by
  let P (_ : LoopState) (out : List Effect) : Prop :=
    ∀ p ∈ notePosts out, ∃ isLocal, p.channel = synthChannel isLocal
  have hstep : ∀ s out input, P s out →
      P (iterate session s input).1 (out ++ (iterate session s input).2) := by
    intro s out input h p hp
    rw [notePosts_append, List.mem_append] at hp
    rcases hp with hp | hp
    · exact h p hp
    · have hround := iterate_spec session s input
      generalize iterate session s input = r at hround hp
      cases hround with
      | stopped _ | sendFailed _ _ _ _ => simp [notePosts] at hp
      | mirrored _ _ _ _ =>
        rw [← List.singleton_append, notePosts_append, notePosts_handleNote] at hp
        exact ⟨false, channel_of_mem_posts (by simpa [notePosts] using hp)⟩
      | localOnly _ _ _ =>
        rw [notePosts_handleNote] at hp
        exact ⟨true, channel_of_mem_posts hp⟩
      | both _ _ =>
        rw [notePosts_append, notePosts_handleNote, notePosts_handleNote, List.mem_append] at hp
        exact hp.elim (fun h => ⟨false, channel_of_mem_posts h⟩)
          (fun h => ⟨true, channel_of_mem_posts h⟩)
  have hstart : P s [] := by simp [P, notePosts]
  exact exec_invariant P hstep hstart inputs p hp

/-- The release after the loop posts nothing. -/
@[simp] theorem notePosts_releaseAtShutdown (session : Session) (s : LoopState) :
    notePosts (releaseAtShutdown session s) = [] := by
  unfold releaseAtShutdown
  split_ifs <;> rfl

/-- The posts of a whole run are those of its loop. -/
theorem notePosts_runMain (session : Session) (s : LoopState) (inputs : List LoopInput) :
    notePosts (runMain session s inputs) = notePosts (mainLoop session s inputs).2 := by
  rw [runMain, notePosts_append, notePosts_releaseAtShutdown, List.append_nil]

/-- A run posts what its players post. -/
theorem mem_notePosts_runMain {session : Session} {s : LoopState} (hrunning : s.running = true)
    {inputs : List LoopInput} {p : NotePost} :
    p ∈ notePosts (runMain session s inputs) ↔
      ∃ isLocal, p ∈ notePosts (playerRun session isLocal (s.tracker isLocal)
        (session.routed s.remoteTracker isLocal inputs)).2 := by
  rw [notePosts_runMain]
  constructor
  · intro hp
    obtain ⟨isLocal, hchannel⟩ := channel_of_mem_mainLoop hp
    refine ⟨isLocal, ?_⟩
    rw [← mainLoop_notePosts session isLocal hrunning]
    exact List.mem_filter.mpr ⟨hp, by simpa using hchannel⟩
  · rintro ⟨isLocal, hp⟩
    rw [← mainLoop_notePosts session isLocal hrunning] at hp
    exact (List.mem_filter.mp hp).1

/-! ### Runs without a failing send -/

/-- When no send fails every round is completed. -/
theorem completed_eq {session : Session} {remote : MonophonyTracker} {inputs : List LoopInput}
    (hok : ∀ input ∈ inputs, session.udpSink = true → 0 < input.sendRet) :
    session.completed remote inputs = inputs := by
  apply List.takeWhile_eq_self_iff.mpr
  intro input hmem
  cases hsink : session.udpSink with
  | true => simp [Session.breaks, hok input hmem hsink]
  | false => simp [Session.breaks, Session.mirrors, hsink]

/-- The remote player is then handed every event. -/
theorem routed_remote_eq {session : Session} {remote : MonophonyTracker} {inputs : List LoopInput}
    (hok : ∀ input ∈ inputs, session.udpSink = true → 0 < input.sendRet) :
    session.routed remote false inputs =
      (inputs.map LoopInput.event).map session.transpose := by
  simp [Session.routed, completed_eq hok]

/-- The local player is then handed the events that are not mirrored. -/
theorem routed_local_eq {session : Session} {remote : MonophonyTracker} {inputs : List LoopInput}
    (hok : ∀ input ∈ inputs, session.udpSink = true → 0 < input.sendRet) :
    session.routed remote true inputs =
      ((inputs.map LoopInput.event).filter fun e => !session.mirrors remote e).map
        session.transpose := by
  simp [Session.routed, completed_eq hok]

end Sussybard

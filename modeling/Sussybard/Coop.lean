import Sussybard.Mirror
import Sussybard.KeyTrace

/-!
# Co-op play over a channel that loses nothing

Sender and receiver run side by side. Between them lies a channel that delivers
in order and loses nothing, but may repeat a datagram right after itself and may
carry empty datagrams. Whatever is in flight, the receiver's local tracker is on
its way to the offset of the sender's remote tracker, and its keys are those of
a tracker that was given every mirrored event once.
-/

namespace Sussybard

open Transducer Relation

/-- Both programs and the channel between them, with everything the two have done. -/
structure Coop where
  /-- The loop of the sender. -/
  sender : LoopState
  /-- What the sender has done. -/
  senderOut : List Effect
  /-- The datagrams in flight, the next one to arrive first. -/
  channel : List (List UInt8)
  /-- The datagram that the receiver read last. -/
  last : Option (List UInt8)
  /-- The loop of the receiver. -/
  receiver : LoopState
  /-- What the receiver has done. -/
  receiverOut : List Effect

/-- Two programs with matching windows of which the receiver has a key sink. -/
structure CoopSetup extends MirrorSetup where
  receiver_keys : receiver.keySink = true

/-- Both loops before their first round. -/
def MirrorSetup.coopStart (setup : MirrorSetup) : Coop where
  sender := setup.sender.loopStart
  senderOut := []
  channel := []
  last := none
  receiver := setup.receiver.loopStart
  receiverOut := []

/-- One step of the sender, of the channel or of the receiver. -/
inductive CoopStep (setup : MirrorSetup) : Coop → Coop → Prop
  | send (s : Coop) (input : LoopInput) (r : LoopState × List Effect)
      (hiterate : iterate setup.senderSession s.sender input = r) :
      CoopStep setup s { s with
        sender := r.1
        senderOut := s.senderOut ++ r.2
        channel := s.channel ++ (transmitted r.2).map SendCall.datagram }
  | repeat (s : Coop) (before after : List (List UInt8)) (d : List UInt8)
      (hchannel : s.channel = before ++ d :: after) :
      CoopStep setup s { s with channel := before ++ d :: d :: after }
  | repeatLast (s : Coop) (d : List UInt8) (hlast : s.last = some d) :
      CoopStep setup s { s with channel := d :: s.channel }
  | insertEmpty (s : Coop) (before after : List (List UInt8))
      (hchannel : s.channel = before ++ after) :
      CoopStep setup s { s with channel := before ++ [] :: after }
  | skipEmpty (s : Coop) (rest : List (List UInt8)) (hchannel : s.channel = [] :: rest) :
      CoopStep setup s { s with channel := rest }
  | receive (s : Coop) (rest : List (List UInt8)) (input : LoopInput)
      (r : LoopState × List Effect)
      (hwait : MIDISourceUDP.waitNextNoteEvent (s.channel.map .datagram) =
        .event input.event (rest.map .datagram))
      (hiterate : iterate setup.receiverSession s.receiver input = r) :
      CoopStep setup s { s with
        channel := rest
        last := s.channel.find? fun d => !d.isEmpty
        receiver := r.1
        receiverOut := s.receiverOut ++ r.2 }

/-- Runs of any interleaving. -/
def CoopRun (setup : MirrorSetup) : Coop → Coop → Prop := ReflTransGen (CoopStep setup)

/-- The events in flight, as the receiver will handle them. -/
def Coop.inFlight (s : Coop) (session : Session) : List NoteEvent :=
  (s.channel.filterMap datagramEvent).map session.transpose

/-- The events that the sender has mirrored, each once, as the receiver would handle them. -/
def Coop.mirrored (s : Coop) (session : Session) : List NoteEvent :=
  (transmitted s.senderOut).map fun call => session.transpose call.event

/-! ### Repeated events -/

/-- An event that does not move the tracker presses and releases no key. -/
theorem keyStep_of_next_eq (session : Session) {tracker : MonophonyTracker} {event : NoteEvent}
    (h : tracker.next event = tracker) : keyStep session tracker event = (tracker, []) := by
  simp [keyStep, h, Voice.edges]

/-- A second delivery at once does nothing. -/
theorem keyStep_repeat (session : Session) (event : NoteEvent) (tracker : MonophonyTracker) :
    keyStep session (keyStep session tracker event).1 event =
      ((keyStep session tracker event).1, []) :=
  keyStep_of_next_eq session (next_next tracker event)

/-- An empty datagram carries no event. -/
theorem datagramEvent_nil : datagramEvent [] = none := rfl

/-! ### The invariant -/

/-- What the next call of `wait_next_note_event` reads is the first event in flight. -/
theorem waitNextNoteEvent_eq_event {channel rest : List (List UInt8)} {event : NoteEvent}
    (hwait : MIDISourceUDP.waitNextNoteEvent (channel.map .datagram) =
      .event event (rest.map .datagram)) :
    channel.filterMap datagramEvent = event :: rest.filterMap datagramEvent ∧
      ∃ d, channel.find? (fun d => !d.isEmpty) = some d ∧ datagramEvent d = some event := by
  induction channel with
  | nil => simp [MIDISourceUDP.waitNextNoteEvent] at hwait
  | cons d channel ih =>
    cases d with
    | nil =>
      rw [List.filterMap_cons_none rfl, List.find?_cons_of_neg (by simp)]
      exact ih hwait
    | cons byte bytes =>
      have hinj : Function.Injective Received.datagram := fun _ _ h => Received.datagram.inj h
      simp only [List.map_cons, MIDISourceUDP.waitNextNoteEvent, WaitResult.event.injEq] at hwait
      obtain ⟨rfl, hrest⟩ := hwait
      rw [List.map_injective_iff.mpr hinj hrest]
      exact ⟨rfl, byte :: bytes, rfl, rfl⟩

/-- The receiver's local tracker and keys when the events in flight have been handled. -/
def MirrorSetup.ahead (setup : MirrorSetup) (s : Coop) : MonophonyTracker × List KeyEvent :=
  exec (keyStep setup.receiverSession) s.receiver.localTracker (s.inFlight setup.receiverSession)

/-- A fresh tracker of the receiver and its keys when it is given each mirrored event once. -/
def MirrorSetup.ideal (setup : MirrorSetup) (s : Coop) : MonophonyTracker × List KeyEvent :=
  exec (keyStep setup.receiverSession) setup.receiver.localTracker
    (s.mirrored setup.receiverSession)

/-- The invariant of co-op play: the tracker and the keys of the receiver, once the events in
flight have been handled, are those of a tracker that was given each mirrored event once; and
that tracker holds the offset that the sender's remote tracker holds. -/
structure CoopInv (setup : CoopSetup) (s : Coop) : Prop where
  running : s.receiver.running = true
  window : s.sender.remoteTracker.noteIsInRange = setup.sender.remoteTracker.noteIsInRange
  tracker_eq : (setup.ahead s).1 = (setup.ideal s).1
  keys_eq : keyTrace s.receiverOut ++ (setup.ahead s).2 = (setup.ideal s).2
  tuned : Tuned setup.receiver.midiTranspose s.sender.remoteTracker (setup.ideal s).1
  offset_eq : (setup.ideal s).1.pressedNoteOffset = s.sender.remoteTracker.pressedNoteOffset
  last_done : ∀ d event, s.last = some d → datagramEvent d = some event →
    s.receiver.localTracker.next (setup.receiverSession.transpose event) = s.receiver.localTracker

/-- The invariant holds at the start. -/
theorem coopInv_start (setup : CoopSetup) : CoopInv setup setup.coopStart where
  running := rfl
  window := rfl
  tracker_eq := rfl
  keys_eq := rfl
  tuned := setup.tuned
  offset_eq := rfl
  last_done := by simp [MirrorSetup.coopStart]

/-- The channel may be changed as long as the events in flight come to the same. -/
theorem CoopInv.of_channel {setup : CoopSetup} {s : Coop} (h : CoopInv setup s)
    {channel : List (List UInt8)}
    (hahead : setup.ahead { s with channel := channel } = setup.ahead s) :
    CoopInv setup { s with channel := channel } where
  running := h.running
  window := h.window
  tracker_eq := by rw [hahead]; exact h.tracker_eq
  keys_eq := by rw [hahead]; exact h.keys_eq
  tuned := h.tuned
  offset_eq := h.offset_eq
  last_done := h.last_done

/-- The receiver has a key sink. -/
theorem CoopSetup.receiver_key (setup : CoopSetup) :
    setup.receiverSession.key.isSome = true := by
  simp [MirrorSetup.receiverSession, Arguments.session, setup.receiver_keys]

/-- A round of the receiver moves its local tracker and its keys by `keyStep`. -/
theorem receiver_iterate (setup : CoopSetup) {s : LoopState} (hrunning : s.running = true)
    (input : LoopInput) :
    let r := iterate setup.receiverSession s input
    r.1.running = true ∧
      (r.1.localTracker, keyTrace r.2) = keyStep setup.receiverSession s.localTracker
        (setup.receiverSession.transpose input.event) := by
  intro r
  have hround := iterate_spec setup.receiverSession s input
  change Round setup.receiverSession s input r at hround
  generalize r = r at hround ⊢
  have hsink := setup.receiver_udpSink
  cases hround with
  | stopped hstopped => simp [hrunning] at hstopped
  | sendFailed _ _ hsink' _ | mirrored _ _ hsink' _ | localOnly _ _ hsink' => simp [hsink] at hsink'
  | both _ _ =>
    refine ⟨hrunning, ?_⟩
    simp [keyTrace_handleNote, setup.receiver_key, keyStep]

/-- Both programs and the channel after a round of the sender. -/
def Coop.afterSend (s : Coop) (r : LoopState × List Effect) : Coop :=
  { s with
    sender := r.1
    senderOut := s.senderOut ++ r.2
    channel := s.channel ++ (transmitted r.2).map SendCall.datagram }

/-- A round that transmits nothing leaves the sender's remote tracker alone. -/
theorem CoopInv.afterSilentRound {setup : CoopSetup} {s : Coop} (h : CoopInv setup s)
    {r : LoopState × List Effect} (hnone : transmitted r.2 = [])
    (htracker : r.1.remoteTracker = s.sender.remoteTracker) : CoopInv setup (s.afterSend r) := by
  have hahead : setup.ahead (s.afterSend r) = setup.ahead s := by
    simp [Coop.afterSend, MirrorSetup.ahead, Coop.inFlight, hnone]
  have hideal : setup.ideal (s.afterSend r) = setup.ideal s := by
    simp [Coop.afterSend, MirrorSetup.ideal, Coop.mirrored, hnone]
  have hremote : (s.afterSend r).sender.remoteTracker = s.sender.remoteTracker := htracker
  exact {
    running := h.running
    window := by rw [hremote, h.window]
    tracker_eq := by rw [hahead, hideal, h.tracker_eq]
    keys_eq := by
      rw [hahead, hideal]
      exact h.keys_eq
    tuned := by
      rw [hideal, hremote]
      exact h.tuned
    offset_eq := by rw [hideal, hremote, h.offset_eq]
    last_done := h.last_done }

/-- A round that transmits an event puts into the channel what it does to the sender's remote
tracker. -/
theorem CoopInv.afterMirroredRound {setup : CoopSetup} {s : Coop} (h : CoopInv setup s)
    {r : LoopState × List Effect} {call : SendCall} (hcall : transmitted r.2 = [call])
    (hmirrored : Mirrored setup.toMirrorSetup call)
    (htracker : r.1.remoteTracker = s.sender.remoteTracker.next call.event) :
    CoopInv setup (s.afterSend r) := by
  let step := keyStep setup.receiverSession
  let event := setup.receiverSession.transpose call.event
  have hahead : setup.ahead (s.afterSend r) =
      ((step (setup.ahead s).1 event).1,
        (setup.ahead s).2 ++ (step (setup.ahead s).1 event).2) := by
    simp only [Coop.afterSend, MirrorSetup.ahead, Coop.inFlight, hcall, List.filterMap_append,
      List.map_append, List.map_cons, List.map_nil,
      List.filterMap_cons_some hmirrored.datagramEvent_eq, List.filterMap_nil]
    exact exec_concat _ _ _ _
  have hideal : setup.ideal (s.afterSend r) =
      ((step (setup.ideal s).1 event).1,
        (setup.ideal s).2 ++ (step (setup.ideal s).1 event).2) := by
    simp only [Coop.afterSend, MirrorSetup.ideal, Coop.mirrored, hcall, transmitted_append,
      List.map_append, List.map_cons, List.map_nil]
    exact exec_concat _ _ _ _
  have hremote : (s.afterSend r).sender.remoteTracker = s.sender.remoteTracker.next call.event :=
    htracker
  exact {
    running := h.running
    window := by
      funext note
      rw [hremote, next_noteIsInRange, h.window]
    tracker_eq := by rw [hahead, hideal, h.tracker_eq]
    keys_eq := by
      rw [hahead, hideal, ← h.keys_eq, h.tracker_eq, List.append_assoc]
      rfl
    tuned := by
      rw [hideal, hremote]
      exact h.tuned.next _ _
    offset_eq := by
      rw [hideal, hremote]
      exact h.tuned.next_offset h.offset_eq call.event
    last_done := h.last_done }

/-- Every step of co-op play keeps the invariant. -/
theorem CoopInv.step {setup : CoopSetup} {s t : Coop} (h : CoopInv setup s)
    (hstep : CoopStep setup.toMirrorSetup s t) : CoopInv setup t := by
  cases hstep with
  | send input r hiterate =>
    change CoopInv setup (s.afterSend r)
    have hsender := sender_iterate setup.toMirrorSetup s.sender input h.window
    rw [hiterate] at hsender
    rcases hsender with ⟨hnone, htracker⟩ | ⟨call, hcall, hmirrored, htracker⟩
    · exact h.afterSilentRound hnone htracker
    · exact h.afterMirroredRound hcall hmirrored htracker
  | «repeat» before after d hchannel =>
    apply h.of_channel
    simp only [MirrorSetup.ahead, Coop.inFlight, hchannel, List.filterMap_append]
    cases hd : datagramEvent d with
    | none => simp only [List.filterMap_cons_none hd]
    | some event =>
      simp only [List.filterMap_cons_some hd, List.map_append, List.map_cons]
      exact exec_repeat (keyStep_repeat _ _) _ _ _
  | repeatLast d hlast =>
    apply h.of_channel
    simp only [MirrorSetup.ahead, Coop.inFlight]
    cases hd : datagramEvent d with
    | none => rw [List.filterMap_cons_none hd]
    | some event =>
      have hdone := keyStep_of_next_eq setup.receiverSession
        (h.last_done d event hlast hd)
      rw [List.filterMap_cons_some hd, List.map_cons, exec_cons, hdone]
      rfl
  | insertEmpty before after hchannel =>
    apply h.of_channel
    simp only [MirrorSetup.ahead, Coop.inFlight, hchannel, List.filterMap_append,
      List.filterMap_cons_none datagramEvent_nil]
  | skipEmpty rest hchannel =>
    apply h.of_channel
    simp only [MirrorSetup.ahead, Coop.inFlight, hchannel,
      List.filterMap_cons_none datagramEvent_nil]
  | receive rest input r hwait hiterate =>
    obtain ⟨hevents, d, hlast, hd⟩ := waitNextNoteEvent_eq_event hwait
    obtain ⟨hrunning, hround⟩ := receiver_iterate setup h.running input
    rw [hiterate] at hrunning hround
    have htracker := (Prod.mk.inj hround).1
    let t : Coop := { s with
      channel := rest
      last := s.channel.find? fun d => !d.isEmpty
      receiver := r.1
      receiverOut := s.receiverOut ++ r.2 }
    have hahead : setup.ahead s = ((setup.ahead t).1, keyTrace r.2 ++ (setup.ahead t).2) := by
      rw [MirrorSetup.ahead, Coop.inFlight, hevents, List.map_cons, exec_cons, ← hround]
      rfl
    have htracker' := h.tracker_eq
    have hkeys' := h.keys_eq
    rw [hahead] at htracker' hkeys'
    exact {
      running := hrunning
      window := h.window
      tracker_eq := htracker'
      keys_eq := by rw [keyTrace_append, List.append_assoc]; exact hkeys'
      tuned := h.tuned
      offset_eq := h.offset_eq
      last_done := by
        intro d' event' hlast' hd'
        simp only [hlast, Option.some.injEq] at hlast'
        subst hlast'
        have heq : event' = input.event := Option.some.inj (hd'.symm.trans hd)
        simp only [heq, htracker]
        exact next_next _ _ }

/-- Every run keeps the invariant. -/
theorem CoopInv.run {setup : CoopSetup} {s t : Coop} (h : CoopInv setup s)
    (hrun : CoopRun setup.toMirrorSetup s t) : CoopInv setup t := by
  induction hrun with
  | refl => exact h
  | tail _ hstep ih => exact ih.step hstep

/-- **Co-op mirroring.** In every interleaving of the two programs and the channel, the
receiver's local tracker, once it has handled the events in flight, holds the offset of the
sender's remote tracker, and the key events of the receiver are then those of the same tracker
given each mirrored event exactly once. When nothing is in flight this is so at once. -/
theorem coop_mirrors (setup : CoopSetup) (s : Coop)
    (hrun : CoopRun setup.toMirrorSetup setup.coopStart s) :
    let session := setup.receiverSession
    let ahead := playerRun session true s.receiver.localTracker (s.inFlight session)
    let ideal := playerRun session true setup.receiver.localTracker (s.mirrored session)
    ahead.1.pressedNoteOffset = s.sender.remoteTracker.pressedNoteOffset ∧
    keyTrace s.receiverOut ++ keyTrace ahead.2 = keyTrace ideal.2 ∧
    (s.inFlight session = [] →
      s.receiver.localTracker.pressedNoteOffset = s.sender.remoteTracker.pressedNoteOffset ∧
      keyTrace s.receiverOut = keyTrace ideal.2) := by
  intro session ahead ideal
  have h := (coopInv_start setup).run hrun
  obtain ⟨htracker, hkeys⟩ := Prod.mk.inj
    (playerRun_keys setup.receiver_key s.receiver.localTracker (s.inFlight session))
  obtain ⟨-, hkeys'⟩ := Prod.mk.inj
    (playerRun_keys setup.receiver_key setup.receiver.localTracker (s.mirrored session))
  have hoffset : ahead.1.pressedNoteOffset = s.sender.remoteTracker.pressedNoteOffset := by
    rw [htracker, ← h.offset_eq, ← h.tracker_eq]
    rfl
  have htrace : keyTrace s.receiverOut ++ keyTrace ahead.2 = keyTrace ideal.2 := by
    rw [hkeys, hkeys']
    exact h.keys_eq
  refine ⟨hoffset, htrace, ?_⟩
  intro hnothing
  simp only [ahead, hnothing] at hoffset htrace
  exact ⟨hoffset, by simpa [playerRun, keyTrace, keyDispatches] using htrace⟩

/-- With the default windows the sender presses note 72, its datagram arrives twice, and the
receiver holds its lowest key down. -/
theorem coop_mirrors_repeated_press :
    let setup : CoopSetup := ⟨MirrorSetup.default, rfl⟩
    ∃ s, CoopRun setup.toMirrorSetup setup.coopStart s ∧ s.channel = [] ∧
      s.sender.remoteTracker.pressedNoteOffset = 0 ∧
      s.receiver.localTracker.pressedNoteOffset = s.sender.remoteTracker.pressedNoteOffset ∧
      keyTrace s.receiverOut = [⟨65, true⟩] := by
  intro setup
  let press : LoopInput := ⟨⟨72, true⟩, 1⟩
  let s₀ := setup.coopStart
  let sent := iterate setup.senderSession s₀.sender press
  let s₁ : Coop := { s₀ with
    sender := sent.1
    senderOut := s₀.senderOut ++ sent.2
    channel := s₀.channel ++ (transmitted sent.2).map SendCall.datagram }
  let s₂ : Coop := { s₁ with channel := [] ++ [200] :: [200] :: [] }
  let first := iterate setup.receiverSession s₂.receiver press
  let s₃ : Coop := { s₂ with
    channel := [[200]]
    last := s₂.channel.find? fun d => !d.isEmpty
    receiver := first.1
    receiverOut := s₂.receiverOut ++ first.2 }
  let second := iterate setup.receiverSession s₃.receiver press
  let s₄ : Coop := { s₃ with
    channel := []
    last := s₃.channel.find? fun d => !d.isEmpty
    receiver := second.1
    receiverOut := s₃.receiverOut ++ second.2 }
  have hsend : CoopStep setup.toMirrorSetup s₀ s₁ := .send s₀ press sent rfl
  have hrepeat : CoopStep setup.toMirrorSetup s₁ s₂ := .repeat s₁ [] [] [200] (by decide)
  have hfirst : CoopStep setup.toMirrorSetup s₂ s₃ :=
    .receive s₂ [[200]] press first (by decide) rfl
  have hsecond : CoopStep setup.toMirrorSetup s₃ s₄ :=
    .receive s₃ [] press second (by decide) rfl
  have hrun : CoopRun setup.toMirrorSetup s₀ s₄ :=
    (((ReflTransGen.single hsend).tail hrepeat).tail hfirst).tail hsecond
  have hmirrors := (coop_mirrors setup s₄ hrun).2.2 rfl
  exact ⟨s₄, hrun, rfl, by decide, hmirrors.1, by decide⟩

end Sussybard

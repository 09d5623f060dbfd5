import Sussybard.Mirror

/-!
# Resynchronisation after loss

When datagrams are lost, repeated or reordered the receiver's local tracker and
the sender's remote tracker drift apart. One press that arrives brings them
together again, whatever the receiver held before, and from then on they stay
together as long as datagrams arrive once and in order.
-/

namespace Sussybard

open Transducer

/-- The events that successive calls of `wait_next_note_event` return before one fails or waits. -/
def sourceEvents : List Received → List NoteEvent
  | [] => []
  | .failed :: _ => []
  | .datagram [] :: rest => sourceEvents rest
  | .datagram (byte :: _) :: rest => noteEventOfByte byte :: sourceEvents rest

/-- They are the results of the calls one after the other. -/
theorem sourceEvents_eq (arrivals : List Received) :
    sourceEvents arrivals = match MIDISourceUDP.waitNextNoteEvent arrivals with
      | .event event rest => event :: sourceEvents rest
      | .failed _ | .blocked => [] := by
  fun_induction sourceEvents arrivals with
  | case1 | case2 | case4 => rfl
  | case3 rest ih => rw [ih]; rfl

/-- Datagrams that arrive without an error are read one by one, the empty ones skipped. -/
theorem sourceEvents_datagrams (datagrams : List (List UInt8)) :
    sourceEvents (datagrams.map .datagram) = datagrams.filterMap datagramEvent := by
  induction datagrams with
  | nil => rfl
  | cons d datagrams ih =>
    cases d with
    | nil =>
      -- The call that skips this datagram goes on as a call on those behind it.
      rw [List.filterMap_cons_none rfl, ← ih, sourceEvents_eq, sourceEvents_eq]
      rfl
    | cons byte bytes =>
      have hevent : datagramEvent (byte :: bytes) = some (noteEventOfByte byte) := rfl
      rw [List.filterMap_cons_some hevent, ← ih, sourceEvents_eq]
      rfl

/-- The loop of a program that reads these datagrams. -/
def receiveAll (session : Session) (s : LoopState) (datagrams : List (List UInt8)) : LoopState :=
  (mainLoop session s ((sourceEvents (datagrams.map .datagram)).map fun event => ⟨event, 0⟩)).1

/-- The receiver's local tracker is moved by the transposed events one after the other. -/
theorem receiveAll_localTracker (setup : MirrorSetup) {s : LoopState} (hrunning : s.running = true)
    (datagrams : List (List UInt8)) :
    (receiveAll setup.receiverSession s datagrams).localTracker =
      ((datagrams.filterMap datagramEvent).map setup.receiverSession.transpose).foldl
        MonophonyTracker.next s.localTracker := by
  have hsink := setup.receiver_udpSink
  have hplayer := (mainLoop_player setup.receiverSession true hrunning
    ((sourceEvents (datagrams.map .datagram)).map fun event => ⟨event, 0⟩)).1
  rw [playerRun_tracker, routed_local_eq (by simp [hsink]), sourceEvents_datagrams] at hplayer
  simp only [LoopState.tracker, Session.mirrors, hsink, Bool.and_false, Bool.not_false,
    List.filter_true, List.map_map, Function.comp_def] at hplayer
  rw [receiveAll, sourceEvents_datagrams]
  simpa [Function.comp_def] using hplayer

/-- One round of the sender, logging what it transmits together with the offset that its remote
tracker then holds. -/
def logStep (session : Session) (s : LoopState) (input : LoopInput) :
    LoopState × List (SendCall × Int32) :=
  let r := iterate session s input
  (r.1, (transmitted r.2).map fun call => (call, r.1.remoteTracker.pressedNoteOffset))

/-- The log of a run of the sender. -/
def senderLog (session : Session) (s : LoopState) (inputs : List LoopInput) :
    List (SendCall × Int32) :=
  (exec (logStep session) s inputs).2

/-- Calls together with the offset that a tracker holds after each of them. -/
def offsetsAfter (tracker : MonophonyTracker) : List SendCall → List (SendCall × Int32)
  | [] => []
  | call :: calls =>
      (call, (tracker.next call.event).pressedNoteOffset) ::
        offsetsAfter (tracker.next call.event) calls

/-- The sender transmits mirrored events and its log records the remote tracker after each. -/
theorem senderLog_eq (setup : MirrorSetup) {s : LoopState}
    (hwindow : s.remoteTracker.noteIsInRange = setup.sender.remoteTracker.noteIsInRange)
    (inputs : List LoopInput) :
    ∃ calls, senderLog setup.senderSession s inputs = offsetsAfter s.remoteTracker calls ∧
      ∀ call ∈ calls, Mirrored setup call := by
  induction inputs generalizing s with
  | nil => exact ⟨[], rfl, by simp⟩
  | cons input inputs ih =>
    have hstep := sender_iterate setup s input hwindow
    simp only at hstep
    simp only [senderLog, exec_cons, logStep] at ih ⊢
    generalize iterate setup.senderSession s input = r at hstep ⊢
    rcases hstep with ⟨hnone, htracker⟩ | ⟨call, hcall, hmirrored, htracker⟩
    · obtain ⟨calls, hcalls, hall⟩ := ih (htracker ▸ hwindow)
      refine ⟨calls, ?_, hall⟩
      rw [hnone, hcalls, htracker]
      rfl
    · have hwindow' : r.1.remoteTracker.noteIsInRange =
          setup.sender.remoteTracker.noteIsInRange := by
        funext note
        rw [htracker, next_noteIsInRange, hwindow]
      obtain ⟨calls, hcalls, hall⟩ := ih hwindow'
      refine ⟨call :: calls, ?_, List.forall_mem_cons.mpr ⟨hmirrored, hall⟩⟩
      rw [hcall, hcalls, htracker]
      rfl

/-- What follows in a log starts from the tracker that the entries before have moved. -/
theorem offsetsAfter_eq_append {tracker : MonophonyTracker} {calls : List SendCall}
    {before rest : List (SendCall × Int32)} (h : offsetsAfter tracker calls = before ++ rest) :
    ∃ front back, calls = front ++ back ∧
      rest = offsetsAfter
        ((front.map SendCall.event).foldl MonophonyTracker.next tracker) back := by
  induction before generalizing tracker calls with
  | nil => exact ⟨[], calls, rfl, h.symm⟩
  | cons entry before ih =>
    cases calls with
    | nil => simp [offsetsAfter] at h
    | cons call calls =>
      obtain ⟨front, back, rfl, hrest⟩ := ih (List.cons.inj h).2
      exact ⟨call :: front, back, rfl, hrest⟩

/-- Tuned trackers stay tuned while one of them is moved. -/
theorem Tuned.foldl_left {transpose : Int32} {remote localTracker : MonophonyTracker}
    (h : Tuned transpose remote localTracker) (events : List NoteEvent) :
    Tuned transpose (events.foldl MonophonyTracker.next remote) localTracker := by
  induction events generalizing remote with
  | nil => exact h
  | cons e events ih =>
    exact ih ⟨by rw [next_range, h.range_eq], by rw [next_baseKey, h.baseKey_eq]⟩

/-- Likewise for the other. -/
theorem Tuned.foldl_right {transpose : Int32} {remote localTracker : MonophonyTracker}
    (h : Tuned transpose remote localTracker) (events : List NoteEvent) :
    Tuned transpose remote (events.foldl MonophonyTracker.next localTracker) := by
  induction events generalizing localTracker with
  | nil => exact h
  | cons e events ih =>
    exact ih ⟨by rw [next_range, h.range_eq], by rw [next_baseKey, h.baseKey_eq]⟩

/-- The event of a call as the receiver handles it. -/
def MirrorSetup.received (setup : MirrorSetup) (call : SendCall) : NoteEvent :=
  ⟨call.note + setup.receiver.midiTranspose, call.pressed⟩

/-- A receiver that agrees with the sender agrees with it after every later entry of the log. -/
theorem lock_step (setup : MirrorSetup) {remote localTracker : MonophonyTracker}
    (h : Tuned setup.receiver.midiTranspose remote localTracker)
    (hoffset : localTracker.pressedNoteOffset = remote.pressedNoteOffset) {calls : List SendCall}
    {front rest : List (SendCall × Int32)} {call : SendCall} {offset : Int32}
    (hlog : offsetsAfter remote calls = front ++ (call, offset) :: rest) :
    (((front ++ [(call, offset)]).map fun entry => setup.received entry.1).foldl
      MonophonyTracker.next localTracker).pressedNoteOffset = offset := by
  induction front generalizing remote localTracker calls with
  | nil =>
    cases calls with
    | nil => simp [offsetsAfter] at hlog
    | cons c calls =>
      obtain ⟨hentry, -⟩ := List.cons.inj hlog
      obtain ⟨rfl, rfl⟩ := Prod.mk.inj hentry
      exact h.next_offset hoffset c.event
  | cons entry front ih =>
    cases calls with
    | nil => simp [offsetsAfter] at hlog
    | cons c calls =>
      obtain ⟨rfl, hrest⟩ := List.cons.inj hlog
      exact ih (h.next c.event _) (h.next_offset hoffset c.event) hrest

/-- A press brings any receiver to the offset of the sender, and from there they go on in
lock step. -/
theorem lock_step_of_press (setup : MirrorSetup) {remote localTracker : MonophonyTracker}
    (h : Tuned setup.receiver.midiTranspose remote localTracker) {d : SendCall}
    (hpress : d.pressed = true) (hin : remote.noteIsInRange d.note = true)
    {calls : List SendCall} {front rest : List (SendCall × Int32)} {call : SendCall}
    {offset : Int32}
    (hlog : offsetsAfter remote (d :: calls) = front ++ (call, offset) :: rest) :
    (((front ++ [(call, offset)]).map fun entry => setup.received entry.1).foldl
      MonophonyTracker.next localTracker).pressedNoteOffset = offset := by
  have hoffset := @Tuned.next_offset_of_press _ _ _ h d.event hpress hin
  cases front with
  | nil =>
    obtain ⟨hentry, -⟩ := List.cons.inj hlog
    obtain ⟨rfl, rfl⟩ := Prod.mk.inj hentry
    exact hoffset
  | cons entry front =>
    obtain ⟨rfl, hrest⟩ := List.cons.inj hlog
    exact lock_step setup (h.next d.event _) hoffset hrest

/-- The receiver reads the datagrams of mirrored events as these events. -/
theorem received_events (setup : MirrorSetup) {entries : List (SendCall × Int32)}
    (hall : ∀ entry ∈ entries, Mirrored setup entry.1) :
    ((entries.map fun entry => entry.1.datagram).filterMap datagramEvent).map
        setup.receiverSession.transpose =
      entries.map fun entry => setup.received entry.1 := by
  induction entries with
  | nil => rfl
  | cons entry entries ih =>
    obtain ⟨hentry, hall⟩ := List.forall_mem_cons.mp hall
    rw [List.map_cons, List.filterMap_cons_some hentry.datagramEvent_eq, List.map_cons, ih hall]
    rfl

/-- The entries of a log are the calls it was made from. -/
theorem mem_of_mem_offsetsAfter {tracker : MonophonyTracker} {calls : List SendCall}
    {entry : SendCall × Int32} (h : entry ∈ offsetsAfter tracker calls) : entry.1 ∈ calls := by
  induction calls generalizing tracker with
  | nil => simp [offsetsAfter] at h
  | cons call calls ih =>
    rcases List.mem_cons.mp h with rfl | h
    · exact List.mem_cons_self
    · exact List.mem_cons_of_mem _ (ih h)

/-- **Resynchronisation.** Let a run of the sender transmit the press `d` and then `after`, and
let the receiver, whatever it held at first and whatever arrived before, get `d` and the
datagrams after it once and in order. Then after `d` and after each later datagram the
receiver's local tracker holds the offset that the sender's remote tracker held right after the
same event. -/
theorem press_resynchronises (setup : MirrorSetup) (inputs : List LoopInput)
    (before after : List (SendCall × Int32)) (d : SendCall) (held : Int32)
    (hlog : senderLog setup.senderSession setup.sender.loopStart inputs =
      before ++ (d, held) :: after)
    (hpress : d.pressed = true) (heldBefore : Int32) (remoteTracker : MonophonyTracker)
    (history : List (List UInt8)) (front rest : List (SendCall × Int32)) (call : SendCall)
    (offset : Int32) (hdelivered : (d, held) :: after = front ++ (call, offset) :: rest) :
    let receiver : LoopState :=
      ⟨{ setup.receiver.localTracker with pressedNoteOffset := heldBefore }, remoteTracker, true⟩
    let datagrams := (front ++ [(call, offset)]).map fun entry => entry.1.datagram
    let result := receiveAll setup.receiverSession receiver (history ++ datagrams)
    result.localTracker.pressedNoteOffset = offset := by
  intro receiver datagrams result
  obtain ⟨calls, hcalls, hall⟩ := senderLog_eq setup (s := setup.sender.loopStart) rfl inputs
  rw [hlog] at hcalls
  obtain ⟨earlier, later, rfl, hlater⟩ := offsetsAfter_eq_append hcalls.symm
  have hmirrored : ∀ entry ∈ front ++ (call, offset) :: rest, Mirrored setup entry.1 := by
    intro entry hmem
    rw [← hdelivered, hlater] at hmem
    exact hall _ (List.mem_append_right _ (mem_of_mem_offsetsAfter hmem))
  have hread : ∀ entry ∈ front ++ [(call, offset)], Mirrored setup entry.1 := by
    intro entry hmem
    apply hmirrored entry
    simp only [List.mem_append, List.mem_cons] at hmem ⊢
    tauto
  have htuned : Tuned setup.receiver.midiTranspose setup.sender.remoteTracker
      receiver.localTracker := ⟨setup.tuned.range_eq, setup.tuned.baseKey_eq⟩
  change (receiveAll _ _ _).localTracker.pressedNoteOffset = offset
  rw [receiveAll_localTracker setup rfl, List.filterMap_append, List.map_append, List.foldl_append,
    received_events setup hread]
  cases later with
  | nil => simp [offsetsAfter] at hlater
  | cons first later =>
    have hfirst : d = first := (Prod.mk.inj (List.cons.inj hlater).1).1
    subst hfirst
    have hin : setup.sender.remoteTracker.noteIsInRange d.note = true :=
      (hall d (by simp)).inRange
    apply lock_step_of_press setup ((htuned.foldl_left _).foldl_right _) hpress _
      (hlater.symm.trans hdelivered)
    rw [foldl_next_noteIsInRange]
    exact hin

/-- With the default windows the press of note 72 is lost and a receiver that holds another key
gets an empty datagram and a stale release; the press of note 76 and its release then move it to
offset 4 and to none. -/
theorem press_resynchronises_default :
    let setup := MirrorSetup.default
    let receiver : LoopState :=
      ⟨{ setup.receiver.localTracker with pressedNoteOffset := 30 }, {}, true⟩
    let after (datagrams : List (List UInt8)) : Int32 :=
      let result := receiveAll setup.receiverSession receiver ([[], [72]] ++ datagrams)
      result.localTracker.pressedNoteOffset
    after [[204]] = 4 ∧ after [[204], [76]] = -1 := by
  intro setup receiver after
  let log : List (SendCall × Int32) := [(⟨72, true, 200, true⟩, 0)]
  let press : SendCall × Int32 := (⟨76, true, 204, true⟩, 4)
  let release : SendCall × Int32 := (⟨76, false, 76, true⟩, -1)
  have hlog : senderLog setup.senderSession setup.sender.loopStart
      [⟨⟨72, true⟩, 1⟩, ⟨⟨76, true⟩, 1⟩, ⟨⟨76, false⟩, 1⟩] = log ++ press :: [release] := by
    decide
  have h := press_resynchronises setup _ log [release] press.1 4 hlog rfl 30 {} [[], [72]]
  exact ⟨h [] [release] press.1 4 rfl, h [press] [] release.1 (-1) rfl⟩

end Sussybard

import Mathlib.Data.List.ReduceOption
import Sussybard.MidiSources
import Sussybard.General.Monitor

/-!
# The queue of the Windows source, lock by lock

`key_on` and `key_off` push an event and notify under the lock of the source, and
`wait_next_note_event` sleeps on its condition variable while the queue is empty.
Here each of these takes several steps, and the thread of the driver may run
between any two steps of the thread that waits. The source of `SourceStep`, whose
deliveries and returns are atomic, is what this comes to.
-/

namespace Sussybard

/-- A call of `midi_callback` that reaches `key_on` or `key_off`. -/
structure NoteCall where
  /-- The message that the driver delivers. -/
  message : MidiMessage
  /-- The bits of the parameter that the message does not use. -/
  unused : ℕ
  /-- The message is a note. -/
  isNote : message.noteEvent.isSome = true

/-- The lock, the condition variable and the queue of `MIDISourceMM`. An empty queue has no front;
what is read there means nothing in the source. -/
def midiMonitor : Monitor.Spec MIDISourceMM NoteCall NoteEvent where
  update call source := midiCallback source mmMimData (call.message.param call.unused)
  notifies _ := true
  enter source := source
  ready source := !source.noteQueue.isEmpty
  act source :=
    (source.noteQueue.headD ⟨0, false⟩, { source with noteQueue := source.noteQueue.tail })

/-- A step as the source sees it: a note is delivered when it is pushed, and returned when it is
popped. -/
def seen : Monitor.Label NoteCall NoteEvent → Option SourceAction
  | .store call => some (.deliver call.message)
  | .act event => some (.returns event)
  | _ => none

/-- The steps of the driver and of the thread that waits. Messages that are not notes, and other
reports of the driver, do not come to the lock. -/
inductive QueueStep : Monitor.State MIDISourceMM NoteCall → Option SourceAction →
    Monitor.State MIDISourceMM NoteCall → Prop
  | monitor {s t : Monitor.State MIDISourceMM NoteCall} {label : Monitor.Label NoteCall NoteEvent}
      (hstep : Monitor.Step midiMonitor s label t) : QueueStep s (seen label) t
  | skip (s : Monitor.State MIDISourceMM NoteCall) {message : MidiMessage}
      (hnone : message.noteEvent = none) (unused : ℕ) :
      QueueStep s (some (.deliver message))
        { s with shared := midiCallback s.shared mmMimData (message.param unused) }
  | notify (s : Monitor.State MIDISourceMM NoteCall) {wMsg : UInt32} (hother : wMsg ≠ mmMimData)
      (dwParam1 : UInt64) :
      QueueStep s (some .notify) { s with shared := midiCallback s.shared wMsg dwParam1 }

/-- Runs at any interleaving of these steps. -/
inductive QueueRun : Monitor.State MIDISourceMM NoteCall → List (Option SourceAction) →
    Monitor.State MIDISourceMM NoteCall → Prop
  | nil (s : Monitor.State MIDISourceMM NoteCall) : QueueRun s [] s
  | concat {s t w : Monitor.State MIDISourceMM NoteCall} {labels : List (Option SourceAction)}
      {label : Option SourceAction} (hrun : QueueRun s labels t) (hstep : QueueStep t label w) :
      QueueRun s (labels ++ [label]) w

/-- Every push is followed by a notification. -/
theorem midiMonitor_silentKeeps : midiMonitor.SilentKeeps :=
  Monitor.Spec.silentKeeps_of_notifies fun _ => rfl

/-- Pushing leaves no queue empty. -/
theorem midiMonitor_stable : midiMonitor.Stable := by
  intro call source hready
  simp only [midiMonitor, Bool.not_eq_true', List.isEmpty_eq_false_iff] at hready ⊢
  rw [midiCallback_message]
  exact List.append_ne_nil_of_left_ne_nil hready _

/-- A source is its queue. -/
theorem MIDISourceMM.eq_of_noteQueue_eq {source source' : MIDISourceMM}
    (hqueue : source.noteQueue = source'.noteQueue) : source = source' := by
  cases source
  cases source'
  rw [mk.injEq]
  exact hqueue

/-- A message that is not a note leaves the source alone. -/
theorem midiCallback_skip (source : MIDISourceMM) {message : MidiMessage}
    (hnone : message.noteEvent = none) (unused : ℕ) :
    midiCallback source mmMimData (message.param unused) = source := by
  apply MIDISourceMM.eq_of_noteQueue_eq
  rw [midiCallback_message, hnone, Option.toList_none, List.append_nil]

/-- Every step keeps the monitor's invariant. -/
theorem QueueStep.inv {s t : Monitor.State MIDISourceMM NoteCall} {label : Option SourceAction}
    (h : Monitor.Inv midiMonitor s) (hstep : QueueStep s label t) : Monitor.Inv midiMonitor t := by
  cases hstep with
  | monitor hstep => exact h.step midiMonitor_silentKeeps hstep
  | skip hnone unused => rwa [midiCallback_skip s.shared hnone unused]
  | notify hother dwParam1 => rwa [midiCallback_other s.shared hother dwParam1]

/-- Every run does. -/
theorem QueueRun.inv {s t : Monitor.State MIDISourceMM NoteCall}
    {labels : List (Option SourceAction)} (h : Monitor.Inv midiMonitor s)
    (hrun : QueueRun s labels t) : Monitor.Inv midiMonitor t := by
  induction hrun with
  | nil => exact h
  | concat _ hstep ih => exact hstep.inv ih

/-- A queue that is ready has a front for `wait_next_note_event` to return. -/
theorem midiMonitor_act {source : MIDISourceMM} (hready : midiMonitor.ready source = true) :
    source.waitNextNoteEvent = some (midiMonitor.act source) := by
  obtain ⟨noteQueue⟩ := source
  cases noteQueue with
  | nil => simp [midiMonitor] at hready
  | cons event rest => rfl

/-- **Refinement.** A step is one of the atomic source, or the source does not see it. -/
theorem QueueStep.refines {s t : Monitor.State MIDISourceMM NoteCall} {label : Option SourceAction}
    (h : Monitor.Inv midiMonitor s) (hstep : QueueStep s label t) :
    SourceRun s.shared label.toList t.shared := by
  have hone : ∀ {action}, SourceStep s.shared action t.shared →
      SourceRun s.shared [action] t.shared := fun hone => (SourceRun.nil _).concat hone
  cases hstep with
  | monitor hstep =>
    cases hstep with
    | store call _ => exact hone (.deliver _ _ _)
    | act hacting => exact hone (.returns (midiMonitor_act (h.ready_of_acting hacting)))
    | enter _ _ | notify _ _ | leave _ _ | wait _ _ | pass _ _ | sleep _ _ | spurious _
    | relock _ _ => exact .nil _
  | skip hnone unused => exact hone (.deliver _ _ _)
  | notify hother dwParam1 => exact hone (.notify _ hother _)

/-- Runs of the source can be joined. -/
theorem SourceRun.append {source source' source'' : MIDISourceMM}
    {actions actions' : List SourceAction} (h : SourceRun source actions source')
    (h' : SourceRun source' actions' source'') :
    SourceRun source (actions ++ actions') source'' := by
  induction h' with
  | nil => rwa [List.append_nil]
  | concat _ hstep ih =>
    rw [← List.append_assoc]
    exact ih.concat hstep

/-- So each run is one of the atomic source. -/
theorem QueueRun.refines {s t : Monitor.State MIDISourceMM NoteCall}
    {labels : List (Option SourceAction)} (h : Monitor.Inv midiMonitor s)
    (hrun : QueueRun s labels t) : SourceRun s.shared labels.reduceOption t.shared := by
  induction hrun with
  | nil => exact .nil _
  | concat hrun hstep ih =>
    rw [List.reduceOption_append]
    refine ih.append ?_
    have hlast := hstep.refines (hrun.inv h)
    rcases ‹Option SourceAction› with _ | action
    · exact hlast
    · exact hlast

/-- **Nothing is lost or reordered under the lock.** At every moment of every run, whatever the
steps of the driver and of the waiting thread between each other, the events that
`wait_next_note_event` returned followed by those in the queue are those of the messages delivered
so far, in order. -/
theorem note_queue_conserves {labels : List (Option SourceAction)}
    {s : Monitor.State MIDISourceMM NoteCall} (hrun : QueueRun (.idle {}) labels s) :
    returned labels.reduceOption ++ s.shared.noteQueue =
      (delivered labels.reduceOption).filterMap MidiMessage.noteEvent :=
  (hrun.refines (Monitor.inv_idle _ _)).conserves

/-- Middle C on the first channel. -/
def middleC : NoteCall := ⟨⟨0x90, 60, 100⟩, 0, by decide⟩

/-- The source after the driver has pushed it, while the waiting thread still sleeps. -/
def pushedC : Monitor.State MIDISourceMM NoteCall :=
  ⟨midiMonitor.update middleC {}, .stored middleC, .asleep⟩

/-- The waiting thread finds the queue empty and sleeps, and then the driver comes. -/
theorem queueRun_pushedC :
    QueueRun (.idle {}) [none, none, none, some (.deliver middleC.message)] pushedC :=
  ((((QueueRun.nil _).concat (.monitor (.wait _ rfl rfl))).concat
    (.monitor (.sleep _ rfl rfl))).concat (.monitor (.enter _ middleC rfl))).concat
      (.monitor (.store _ middleC rfl))

/-- The queue then holds the press of its note. -/
theorem pushedC_queue : pushedC.shared.noteQueue = [⟨60, true⟩] := by
  have hqueue : pushedC.shared.noteQueue = [] ++ middleC.message.noteEvent.toList :=
    midiCallback_message {} middleC.message middleC.unused
  rw [hqueue]
  decide

/-- Another note, released. -/
def releasedE : NoteCall := ⟨⟨0x80, 64, 0⟩, 0, by decide⟩

/-- The source after `wait_next_note_event` has returned the press, while the driver has pushed
the release. -/
def pushedE : Monitor.State MIDISourceMM NoteCall :=
  ⟨midiMonitor.update releasedE (midiMonitor.act pushedC.shared).2, .stored releasedE, .outside⟩

/-- The press is in front when the waiting thread comes to it. -/
theorem pushedC_ready : midiMonitor.ready pushedC.shared = true := by
  simp [midiMonitor, pushedC_queue]

/-- The press is returned. -/
theorem pushedC_act : (midiMonitor.act pushedC.shared).1 = ⟨60, true⟩ := by
  simp [midiMonitor, pushedC_queue]

/-- The waiting thread returns the press before the driver comes back. -/
theorem queueRun_pushedE :
    QueueRun (.idle {})
      [none, none, none, some (.deliver middleC.message), none, none, none, none,
        some (.returns ⟨60, true⟩), none, some (.deliver releasedE.message)] pushedE := by
  have hleft := (queueRun_pushedC.concat (.monitor (.notify _ middleC rfl))).concat
    (.monitor (.leave _ middleC rfl))
  have hacting := (hleft.concat (.monitor (.relock _ rfl rfl))).concat
    (.monitor (.pass _ rfl pushedC_ready))
  have hreturned := hacting.concat (.monitor (.act _ rfl))
  have hpushed := (hreturned.concat (.monitor (.enter _ releasedE rfl))).concat
    (.monitor (.store _ releasedE rfl))
  rw [← pushedC_act]
  exact hpushed

/-- The press has been returned, and between the push and the notification the release is in the
queue. -/
theorem note_queue_conserves_pushed :
    [⟨60, true⟩] ++ pushedE.shared.noteQueue =
      [middleC.message, releasedE.message].filterMap MidiMessage.noteEvent :=
  note_queue_conserves queueRun_pushedE

/-! ### The thread that waits -/

/-- A run of the monitor is one of the source. -/
theorem queueRun_monitor {s t : Monitor.State MIDISourceMM NoteCall}
    {labels : List (Monitor.Label NoteCall NoteEvent)} (hrun : Monitor.Run midiMonitor s labels t) :
    QueueRun s (labels.map seen) t := by
  induction hrun with
  | nil => exact .nil _
  | concat _ hstep ih =>
    rw [List.map_append]
    exact ih.concat (.monitor hstep)

/-- What a run of the monitor returns is seen. -/
theorem mem_returned {labels : List (Monitor.Label NoteCall NoteEvent)} {event : NoteEvent}
    (hact : .act event ∈ labels) : event ∈ returned (labels.map seen).reduceOption := by
  rw [returned, List.mem_filterMap]
  refine ⟨.returns event, ?_, rfl⟩
  rw [List.reduceOption_mem_iff, List.mem_map]
  exact ⟨_, hact, rfl⟩

/-- **No wakeup is lost.** In every state that can be reached, while `wait_next_note_event` waits
and the queue is not empty, and whatever callbacks come in the meantime: until it has returned there
are fewer than seven steps and four for each callback that comes, fewer than four of them its own,
and a step is due, by the callback that has the lock or, if none has, by itself. What it returns is
the front of the queue. -/
theorem wait_next_note_event_returns {before : List (Option SourceAction)}
    {s t : Monitor.State MIDISourceMM NoteCall} {event : NoteEvent} {rest : List NoteEvent}
    {labels : List (Monitor.Label NoteCall NoteEvent)} (hreach : QueueRun (.idle {}) before s)
    (hwaits : s.waiter ≠ .outside) (hqueue : s.shared.noteQueue = event :: rest)
    (hrun : Monitor.Run midiMonitor s labels t) :
    ((∀ event', .act event' ∉ labels) →
        labels.length < 7 + 4 * labels.countP Monitor.Label.comes ∧
        labels.countP Monitor.Label.ofWaiter < 4 ∧
        ∃ (label : Monitor.Label NoteCall NoteEvent) (w : Monitor.State MIDISourceMM NoteCall),
          label.Due ∧ Monitor.Step midiMonitor t label w ∧
            (t.holder = .free ∨ t.holder = .waiter → label.ofWaiter = true)) ∧
      ∀ event', .act event' ∈ labels →
        (returned (labels.map seen).reduceOption).head? = some event := by
  have hinv := hreach.inv (Monitor.inv_idle _ _)
  have hready : midiMonitor.ready s.shared = true := by simp [midiMonitor, hqueue]
  refine ⟨fun hquiet => hinv.waiter_acts midiMonitor_silentKeeps midiMonitor_stable hwaits hready
    hrun hquiet, fun event' hact => ?_⟩
  -- Something was returned, and what is returned first is what was in front.
  have hconserves := ((queueRun_monitor hrun).refines hinv).conserves
  rw [hqueue] at hconserves
  have hmem := mem_returned hact
  cases hreturned : returned (labels.map seen).reduceOption with
  | nil =>
    rw [hreturned] at hmem
    cases hmem
  | cons first later =>
    rw [hreturned] at hconserves
    exact congrArg some (List.cons.inj hconserves).1

/-- The driver notifies the sleeping thread and leaves, and comes back before the thread wakes up;
the thread still returns what was in front. -/
theorem wait_next_note_event_returns_pushed :
    (returned ([Monitor.Label.notify middleC, .leave middleC, .enter releasedE, .store releasedE,
      .notify releasedE, .leave releasedE, .inner, .inner, .act ⟨60, true⟩].map
        seen).reduceOption).head? = some ⟨60, true⟩ := by
  let both := midiMonitor.update releasedE pushedC.shared
  have hboth : both.noteQueue = pushedC.shared.noteQueue ++ releasedE.message.noteEvent.toList :=
    midiCallback_message pushedC.shared releasedE.message releasedE.unused
  rw [pushedC_queue] at hboth
  have hready : midiMonitor.ready both = true := by simp [midiMonitor, hboth]
  have hfront : (midiMonitor.act both).1 = ⟨60, true⟩ := by simp [midiMonitor, hboth]
  have hnil : Monitor.Run midiMonitor pushedC [] pushedC := .nil _
  have hback := (((hnil.concat (.notify _ middleC rfl)).concat (.leave _ middleC rfl)).concat
    (.enter _ releasedE rfl)).concat (.store _ releasedE rfl)
  have hacting := (((hback.concat (.notify _ releasedE rfl)).concat
    (.leave _ releasedE rfl)).concat (.relock _ rfl rfl)).concat (.pass _ rfl hready)
  have hreturns := (wait_next_note_event_returns queueRun_pushedC (by decide) pushedC_queue
    (hacting.concat (.act _ rfl))).2 _ (List.mem_append_right _ (List.mem_singleton_self _))
  rw [← hfront] at hreturns ⊢
  exact hreturns

end Sussybard

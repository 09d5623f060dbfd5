import Sussybard.General.Monitor
import Sussybard.PulseLock
import Sussybard.Sessions

/-!
# Sessions of the PulseAudio backend

The thread of the mainloop runs the callbacks of the stream under its lock, and
`Pulse::start` and `Pulse::stop` wait under the same lock until one of them has
reported. Before they take the lock and after they have released it they write
to members that the callbacks read. Callbacks may come between any two steps of
the main thread. The backend has a callback, as the only one that is created
does.
-/

namespace Sussybard

/-- The functions of `Pulse` that wait. -/
inductive PulseFunction where
  | start
  | stop
  deriving DecidableEq, Repr

/-- Where the main thread is. -/
inductive PulsePlace where
  /-- In neither function. -/
  | outside
  /-- About to take the lock. -/
  | entering (function : PulseFunction)
  /-- Behind the cork operation, until the lock is released. -/
  | inside (function : PulseFunction)
  /-- Without the lock, about to set `is_active`. -/
  | leaving (function : PulseFunction)
  deriving DecidableEq, Repr

/-- The backend and the main thread, with two logs that no step reads. -/
structure PulseShared where
  /-- The members. -/
  pulse : Pulse
  /-- The main thread. -/
  place : PulsePlace
  /-- The calls of the callback. -/
  log : List CallbackEvent
  /-- A request was served after the lock was released in `stop`, and before `is_active` was
  cleared. -/
  late : Bool
  deriving DecidableEq, Repr

/-- The callbacks of the mainloop. -/
inductive PulseCallback where
  /-- `stream_success_cb` -/
  | success (success : Int32)
  /-- `stream_request_cb`, with the length that `pa_stream_begin_write` grants. -/
  | request (granted : Option ℕ)
  /-- `context_state_cb` and `stream_state_cb` -/
  | state
  /-- `stream_buffer_attr_cb` -/
  | bufferAttr
  deriving DecidableEq, Repr

/-- `stream_request_cb`, as the callback sees it. -/
def PulseShared.serve (shared : PulseShared) (length : ℕ) : PulseShared :=
  let outFrames := toFrames shared.pulse.channels length
  if shared.pulse.isActive then
    { shared with
      log := shared.log ++ mixEvents outFrames
      late := shared.late || (shared.place == .leaving .stop && outFrames != 0) }
  else shared

/-- What `start` and `stop` do before their wait loop. -/
def PulseShared.cork (shared : PulseShared) : PulseShared :=
  match shared.place with
  | .entering .start =>
    { shared with place := .inside .start, log := shared.log ++ [.startCall, .startReturn] }
  | .entering .stop => { shared with place := .inside .stop }
  | _ => shared

/-- What they do behind it, until they release the lock. -/
def PulseShared.corked (shared : PulseShared) : PulseShared :=
  match shared.place with
  | .inside .start => { shared with place := .leaving .start }
  | .inside .stop =>
    { shared with place := .leaving .stop, log := shared.log ++ [.stopCall, .stopReturn] }
  | _ => shared

/-- The lock of the mainloop, its condition variable and what they protect. -/
def pulseMonitor : Monitor.Spec PulseShared PulseCallback Unit where
  update callback shared :=
    match callback with
    | .success success => { shared with pulse := streamSuccessCb shared.pulse success }
    | .request granted => granted.elim shared shared.serve
    | .state | .bufferAttr => shared
  notifies callback :=
    match callback with
    | .success _ | .state => true
    | .request _ | .bufferAttr => false
  enter := PulseShared.cork
  ready shared := shared.pulse.hasSuccess
  act shared := ((), shared.corked)

/-- The backend after `init`, with nobody under the lock. -/
def pulseInit (channels : ℕ) : Monitor.State PulseShared PulseCallback :=
  .idle ⟨{ channels := channels, mainloop := true, context := true, stream := true }, .outside, [],
    false⟩

/-- The steps of the main thread and of the thread of the mainloop. -/
inductive PulseStep : Monitor.State PulseShared PulseCallback →
    Monitor.State PulseShared PulseCallback → Prop
  | start (s : Monitor.State PulseShared PulseCallback) (hplace : s.shared.place = .outside)
      (hactive : s.shared.pulse.isActive = false) :
      PulseStep s
        { s with
          shared := { s.shared with
            place := .entering .start
            pulse := { s.shared.pulse with hasSuccess := false } } }
  | stop (s : Monitor.State PulseShared PulseCallback) (hplace : s.shared.place = .outside)
      (hactive : s.shared.pulse.isActive = true) :
      PulseStep s
        { s with
          shared := { s.shared with
            place := .entering .stop
            pulse := { s.shared.pulse with hasSuccess := false } } }
  | monitor {s t : Monitor.State PulseShared PulseCallback}
      {label : Monitor.Label PulseCallback Unit} (hstep : Monitor.Step pulseMonitor s label t)
      (hwait : label = .wait → ∃ function, s.shared.place = .entering function) : PulseStep s t
  | finish (s : Monitor.State PulseShared PulseCallback) {function : PulseFunction}
      (hplace : s.shared.place = .leaving function) :
      PulseStep s
        { s with
          shared := { s.shared with
            place := .outside
            pulse := { s.shared.pulse with
              isActive := function == .start
              hasSuccess := false } } }

/-- Runs of both, at any interleaving. -/
def PulseRun : Monitor.State PulseShared PulseCallback →
    Monitor.State PulseShared PulseCallback → Prop :=
  Relation.ReflTransGen PulseStep

/-! ### The lock -/

/-- Only `stream_success_cb` ends a wait, and it signals. -/
theorem pulseMonitor_silentKeeps : pulseMonitor.SilentKeeps := by
  intro callback shared hquiet hready
  cases callback with
  | success _ | state => cases hquiet
  | bufferAttr => exact hready
  | request granted =>
    cases granted with
    | none => exact hready
    | some length =>
      simp only [pulseMonitor, Option.elim_some, PulseShared.serve] at hready
      split at hready <;> exact hready

/-- No callback takes a report back. -/
theorem pulseMonitor_stable : pulseMonitor.Stable := by
  intro callback shared hready
  cases callback with
  | success _ => rfl
  | state | bufferAttr => exact hready
  | request granted =>
    cases granted with
    | none => exact hready
    | some length =>
      simp only [pulseMonitor, Option.elim_some, PulseShared.serve]
      split <;> exact hready

/-! ### The main thread -/

/-- Where the callback is in its session. -/
def PulseShared.phase (shared : PulseShared) : SessionPhase :=
  match shared.place with
  | .outside => if shared.pulse.isActive then .playing else .closed
  | .entering .start | .leaving .stop => .closed
  | .inside _ | .leaving .start | .entering .stop => .playing

/-- The function that the main thread is in. -/
def PulsePlace.function : PulsePlace → Option PulseFunction
  | .outside => none
  | .entering function | .inside function | .leaving function => some function

/-- `mix_samples` was called for some frames right after `on_backend_stop` had returned. -/
def MixedAfterStop (log : List CallbackEvent) : Prop :=
  ∃ frames, 0 < frames ∧ [.stopCall, .stopReturn, .mixCall frames] <:+: log

/-- It was also if more calls follow. -/
theorem MixedAfterStop.append {log : List CallbackEvent} (h : MixedAfterStop log)
    (more : List CallbackEvent) : MixedAfterStop (log ++ more) := by
  obtain ⟨frames, hpos, hcalls⟩ := h
  exact ⟨frames, hpos, List.infix_append_of_infix_left hcalls⟩

/-- Those are no calls of sessions. -/
theorem MixedAfterStop.sessionAfter_eq {log : List CallbackEvent} (h : MixedAfterStop log)
    (maxNumFrames : ℕ) : sessionAfter maxNumFrames log = none := by
  obtain ⟨frames, -, past, rest, rfl⟩ := h
  rw [sessionAfter_append, sessionAfter_append]
  cases sessionAfter maxNumFrames past with
  | none => rfl
  | some phase => cases phase <;> rfl

/-- What holds of the members in every state. `is_active` says which function is running, and the
log is one of sessions, unless a request was served late: right after `on_backend_stop`, with which
the log ends until then. -/
structure PulseShared.Sound (shared : PulseShared) : Prop where
  active_of_place : ∀ function ∈ shared.place.function,
    shared.pulse.isActive = (function == .stop)
  session : sessionAfter maxNumSamples shared.log =
    if shared.late then none else some shared.phase
  stopped : shared.place = .leaving .stop → shared.late = false →
    [.stopCall, .stopReturn] <:+ shared.log
  mixed : shared.late = true → MixedAfterStop shared.log

/-- A request for a frame or more that is served late calls `mix_samples` after
`on_backend_stop`. -/
theorem PulseShared.Sound.mixed_late {shared : PulseShared} (h : shared.Sound)
    (hplace : shared.place = .leaving .stop) {outFrames : ℕ} (hmore : outFrames ≠ 0) :
    MixedAfterStop (shared.log ++ mixEvents outFrames) := by
  cases hlate : shared.late with
  | true => exact (h.mixed hlate).append _
  | false =>
    obtain ⟨past, hpast⟩ := h.stopped hplace hlate
    refine ⟨toWrite outFrames, (toWrite_spec hmore).1, past,
      .mixReturn :: mixEvents (outFrames - toWrite outFrames), ?_⟩
    rw [← hpast, mixEvents_of_ne hmore]
    simp

/-- A request is served between calls, or late. -/
theorem PulseShared.Sound.serve {shared : PulseShared} (h : shared.Sound) (length : ℕ) :
    (shared.serve length).Sound := by
  unfold PulseShared.serve
  by_cases hactive : shared.pulse.isActive = true
  swap
  · rwa [if_neg hactive]
  rw [if_pos hactive]
  by_cases hstopped : shared.place = .leaving .stop
  · by_cases hzero : toFrames shared.pulse.channels length = 0
    · -- A request for less than a frame leaves no trace.
      simp only [hzero, mixEvents_zero, bne_self_eq_false, Bool.and_false, Bool.or_false,
        List.append_nil]
      exact h
    · have hmixed := h.mixed_late hstopped hzero
      have hlate : (shared.late || (shared.place == .leaving .stop &&
          toFrames shared.pulse.channels length != 0)) = true := by simp [hstopped, hzero]
      refine ⟨h.active_of_place, ?_, fun _ hquiet => ?_, fun _ => hmixed⟩
      · exact (hmixed.sessionAfter_eq _).trans (if_pos hlate).symm
      · exact absurd (hlate.symm.trans hquiet) (by decide)
  · have hlate : (shared.late || (shared.place == .leaving .stop &&
        toFrames shared.pulse.channels length != 0)) = shared.late := by simp [hstopped]
    refine ⟨h.active_of_place, ?_, fun hplace _ => absurd hplace hstopped, fun hmixed => ?_⟩
    · have hplaying : shared.late = false → shared.phase = .playing := by
        intro _
        unfold phase
        cases hplace : shared.place with
        | outside => exact if_pos hactive
        | inside _ => rfl
        | entering function =>
          have hfunction := h.active_of_place function (by rw [hplace, PulsePlace.function]; rfl)
          cases function with
          | start => exact absurd (hactive.symm.trans hfunction) (by decide)
          | stop => rfl
        | leaving function =>
          cases function with
          | start => rfl
          | stop => exact absurd hplace hstopped
      dsimp only
      rw [hlate, sessionAfter_append, h.session]
      cases hquiet : shared.late with
      | true => rfl
      | false =>
        rw [if_neg (by decide), Option.bind_some, hplaying hquiet, playing_mixEvents]
        exact congrArg some (hplaying hquiet).symm
    · exact (h.mixed (hlate.symm.trans hmixed)).append _

/-- A callback keeps the members sound. -/
theorem PulseShared.Sound.update {shared : PulseShared} (h : shared.Sound)
    (callback : PulseCallback) : (pulseMonitor.update callback shared).Sound := by
  cases callback with
  | success success => exact ⟨h.active_of_place, h.session, h.stopped, h.mixed⟩
  | state | bufferAttr => exact h
  | request granted =>
    cases granted with
    | none => exact h
    | some length => exact h.serve length

/-- More calls are as good as those before. -/
theorem PulseShared.Sound.session_append {shared : PulseShared} (h : shared.Sound)
    {more : List CallbackEvent} {phase : SessionPhase}
    (hmore : shared.phase.after maxNumSamples more = some phase) :
    sessionAfter maxNumSamples (shared.log ++ more) =
      if shared.late then none else some phase := by
  rw [sessionAfter_append, h.session]
  split
  · rfl
  · exact hmore

/-- So do `start` and `stop` before their wait loop. -/
theorem PulseShared.Sound.cork {shared : PulseShared} (h : shared.Sound)
    {function : PulseFunction} (hplace : shared.place = .entering function) :
    shared.cork.Sound ∧ shared.cork.place = .inside function := by
  obtain ⟨pulse, place, log, late⟩ := shared
  obtain rfl : place = .entering function := hplace
  cases function with
  | start =>
    exact ⟨⟨h.active_of_place, h.session_append rfl, by simp [PulseShared.cork],
      fun hlate => (h.mixed hlate).append _⟩, rfl⟩
  | stop => exact ⟨⟨h.active_of_place, h.session, by simp [PulseShared.cork], h.mixed⟩, rfl⟩

/-- And behind it. -/
theorem PulseShared.Sound.corked {shared : PulseShared} (h : shared.Sound)
    {function : PulseFunction} (hplace : shared.place = .inside function) :
    shared.corked.Sound ∧ shared.corked.place = .leaving function := by
  obtain ⟨pulse, place, log, late⟩ := shared
  obtain rfl : place = .inside function := hplace
  cases function with
  | start => exact ⟨⟨h.active_of_place, h.session, by simp [PulseShared.corked], h.mixed⟩, rfl⟩
  | stop =>
    exact ⟨⟨h.active_of_place, h.session_append rfl, fun _ _ => List.suffix_append _ _,
      fun hlate => (h.mixed hlate).append _⟩, rfl⟩

/-- The main thread is under the lock, or waiting for it, when its place says so. -/
structure PulseInv (s : Monitor.State PulseShared PulseCallback) : Prop where
  monitor : Monitor.Inv pulseMonitor s
  inside_iff : s.waiter ≠ .outside ↔ ∃ function, s.shared.place = .inside function
  sound : s.shared.Sound

/-- The backend is sound after `init`. -/
theorem pulseInv_init (channels : ℕ) : PulseInv (pulseInit channels) where
  monitor := Monitor.inv_idle _ _
  inside_iff := by simp [pulseInit, Monitor.State.idle]
  sound := ⟨by simp [pulseInit, Monitor.State.idle, PulsePlace.function], rfl,
    by simp [pulseInit, Monitor.State.idle], by simp [pulseInit, Monitor.State.idle]⟩

/-- A callback does not move the main thread. -/
theorem pulseMonitor_update_place (callback : PulseCallback) (shared : PulseShared) :
    (pulseMonitor.update callback shared).place = shared.place := by
  cases callback with
  | success _ | state | bufferAttr => rfl
  | request granted =>
    cases granted with
    | none => rfl
    | some length =>
      simp only [pulseMonitor, Option.elim_some, PulseShared.serve]
      split <;> rfl

/-- Outside the lock, the main thread is outside the monitor. -/
theorem PulseInv.outside {s : Monitor.State PulseShared PulseCallback} (h : PulseInv s)
    (hplace : ∀ function, s.shared.place ≠ .inside function) : s.waiter = .outside := by
  by_contra hwaits
  obtain ⟨function, hinside⟩ := h.inside_iff.mp hwaits
  exact hplace function hinside

/-- Every step keeps the backend sound. -/
theorem PulseInv.step {s t : Monitor.State PulseShared PulseCallback} (h : PulseInv s)
    (hstep : PulseStep s t) : PulseInv t := by
  cases hstep with
  | start hplace hactive =>
    have houtside := h.outside (by simp [hplace])
    refine ⟨h.monitor.outside houtside _, by simp [houtside], ?_, ?_, by simp, h.sound.mixed⟩
    · rintro _ ⟨⟩
      exact hactive
    · rw [h.sound.session, PulseShared.phase, hplace, hactive]
      rfl
  | stop hplace hactive =>
    have houtside := h.outside (by simp [hplace])
    refine ⟨h.monitor.outside houtside _, by simp [houtside], ?_, ?_, by simp, h.sound.mixed⟩
    · rintro _ ⟨⟩
      exact hactive
    · rw [h.sound.session, PulseShared.phase, hplace, hactive]
      rfl
  | @finish function hplace =>
    have houtside := h.outside (by simp [hplace])
    refine ⟨h.monitor.outside houtside _, by simp [houtside], nofun, ?_, by simp, h.sound.mixed⟩
    rw [h.sound.session, PulseShared.phase, hplace]
    cases function <;> rfl
  | monitor hstep hwait =>
    have hmonitor := h.monitor.step pulseMonitor_silentKeeps hstep
    cases hstep with
    | enter _ _ | leave _ _ => exact ⟨hmonitor, h.inside_iff, h.sound⟩
    | store callback _ =>
      refine ⟨hmonitor, ?_, h.sound.update callback⟩
      rw [pulseMonitor_update_place]
      exact h.inside_iff
    | notify callback _ =>
      refine ⟨hmonitor, (not_congr ?_).trans h.inside_iff, h.sound⟩
      dsimp only
      split_ifs
      · exact Monitor.Waiter.wake_eq_iff (by decide) (by decide)
      · exact Iff.rfl
    | pass hwaiter _ | sleep hwaiter _ | spurious hwaiter | relock hwaiter _ =>
      have hinside := h.inside_iff.mp (by simp [hwaiter])
      exact ⟨hmonitor, iff_of_true nofun hinside, h.sound⟩
    | wait houtside _ =>
      obtain ⟨function, hplace⟩ := hwait rfl
      obtain ⟨hsound, hinside⟩ := h.sound.cork hplace
      exact ⟨hmonitor, iff_of_true nofun ⟨function, hinside⟩, hsound⟩
    | act hacting =>
      obtain ⟨function, hplace⟩ := h.inside_iff.mp (by simp [hacting])
      obtain ⟨hsound, hleaving⟩ := h.sound.corked hplace
      refine ⟨hmonitor, iff_of_false (fun hne => hne rfl) ?_, hsound⟩
      rintro ⟨function', hinside⟩
      exact absurd (hleaving.symm.trans hinside) nofun

/-- So does every run. -/
theorem PulseInv.run {s t : Monitor.State PulseShared PulseCallback} (h : PulseInv s)
    (hrun : PulseRun s t) : PulseInv t := by
  induction hrun with
  | refl => exact h
  | tail _ hstep ih => exact ih.step hstep

/-- **Sessions are sound, up to a late request.** In every run the calls of the callback are those
of sessions, unless a request for a frame or more is served after `stop` has released the lock and
before it has cleared `is_active`; and one is if and only if `mix_samples` is called right after
`on_backend_stop` has returned. In particular `mix_samples` is called neither before
`on_backend_start` has returned nor during any other call. -/
theorem pulse_sessions {channels : ℕ} {s : Monitor.State PulseShared PulseCallback}
    (hrun : PulseRun (pulseInit channels) s) :
    sessionAfter maxNumSamples s.shared.log =
        (if s.shared.late then none else some s.shared.phase) ∧
      (s.shared.late = true ↔ MixedAfterStop s.shared.log) := by
  have hsound := ((pulseInv_init channels).run hrun).sound
  refine ⟨hsound.session, hsound.mixed, fun hmixed => ?_⟩
  by_contra hquiet
  have hsession := hsound.session
  rw [hmixed.sessionAfter_eq, if_neg hquiet] at hsession
  cases hsession

/-- `start` has been told of success, by a callback that is about to release the lock. -/
def reportedState : Monitor.State PulseShared PulseCallback :=
  ⟨⟨⟨2, true, true, true, 1, true, false⟩, .inside .start, [.startCall, .startReturn], false⟩,
    .leaving (.success 1), .woken⟩

/-- A step of the monitor that is not the first of a wait. -/
theorem PulseStep.inner {s t : Monitor.State PulseShared PulseCallback}
    {label : Monitor.Label PulseCallback Unit} (hstep : Monitor.Step pulseMonitor s label t)
    (hwait : label ≠ .wait) : PulseStep s t :=
  .monitor hstep fun heq => absurd heq hwait

/-- The main thread waits, and the callback wakes it up. -/
theorem pulseRun_reported : PulseRun (pulseInit 2) reportedState := by
  have hnil : PulseRun (pulseInit 2) (pulseInit 2) := .refl
  have hasleep := ((hnil.tail (.start _ rfl rfl)).tail
    (.monitor (.wait _ rfl rfl) fun _ => ⟨.start, rfl⟩)).tail (.inner (.sleep _ rfl rfl) nofun)
  exact ((hasleep.tail (.inner (.enter _ (.success 1) rfl) nofun)).tail
    (.inner (.store _ _ rfl) nofun)).tail (.inner (.notify _ _ rfl) nofun)

/-- The backend is stopped, and a request for 300 frames is served before `is_active` is cleared:
its frames are mixed after `on_backend_stop`. -/
theorem pulse_sessions_late :
    let log : List CallbackEvent := [.startCall, .startReturn, .stopCall, .stopReturn,
      .mixCall 256, .mixReturn, .mixCall 44, .mixReturn]
    sessionAfter maxNumSamples log = none ∧ MixedAfterStop log := by
  have hstarted := ((((pulseRun_reported.tail (.inner (.leave _ _ rfl) nofun)).tail
    (.inner (.relock _ rfl rfl) nofun)).tail (.inner (.pass _ rfl rfl) nofun)).tail
      (.inner (.act _ rfl) nofun)).tail (.finish _ rfl)
  have hasleep := ((hstarted.tail (.stop _ rfl rfl)).tail
    (.monitor (.wait _ rfl rfl) fun _ => ⟨.stop, rfl⟩)).tail (.inner (.sleep _ rfl rfl) nofun)
  have hreported := (((hasleep.tail (.inner (.enter _ (.success 1) rfl) nofun)).tail
    (.inner (.store _ _ rfl) nofun)).tail (.inner (.notify _ _ rfl) nofun)).tail
      (.inner (.leave _ _ rfl) nofun)
  have hstopped := ((hreported.tail (.inner (.relock _ rfl rfl) nofun)).tail
    (.inner (.pass _ rfl rfl) nofun)).tail (.inner (.act _ rfl) nofun)
  have hlate := (hstopped.tail (.inner (.enter _ (.request (some 2400)) rfl) nofun)).tail
    (.inner (.store _ _ rfl) nofun)
  have hframes : mixEvents 300 = [.mixCall 256, .mixReturn, .mixCall 44, .mixReturn] := by
    simp [mixEvents, toWrite, maxNumSamples]
  have hlog := congrArg ([.startCall, .startReturn, .stopCall, .stopReturn] ++ ·) hframes
  obtain ⟨hsession, hmixed⟩ := pulse_sessions hlate
  exact ⟨(congrArg (sessionAfter maxNumSamples) hlog).symm.trans hsession,
    (congrArg MixedAfterStop hlog).mp (hmixed.mp rfl)⟩

/-- **`start` and `stop` return.** In every state that can be reached, once `stream_success_cb`
has reported to the function that waits, and whatever callbacks come in the meantime: until it has
gone on and released the lock there are fewer than seven steps and four for each callback that
comes, fewer than four of them its own, and a step is due, by the callback that has the lock or, if
none has, by itself. -/
theorem pulse_wait_returns {channels : ℕ} {s t : Monitor.State PulseShared PulseCallback}
    {function : PulseFunction} {labels : List (Monitor.Label PulseCallback Unit)}
    (hreach : PulseRun (pulseInit channels) s) (hplace : s.shared.place = .inside function)
    (hreported : s.shared.pulse.hasSuccess = true) (hrun : Monitor.Run pulseMonitor s labels t)
    (hquiet : .act () ∉ labels) :
    labels.length < 7 + 4 * labels.countP Monitor.Label.comes ∧
      labels.countP Monitor.Label.ofWaiter < 4 ∧
      ∃ (label : Monitor.Label PulseCallback Unit) (w : Monitor.State PulseShared PulseCallback),
        label.Due ∧ Monitor.Step pulseMonitor t label w ∧
          (t.holder = .free ∨ t.holder = .waiter → label.ofWaiter = true) := by
  have h := (pulseInv_init channels).run hreach
  have hwaits := h.inside_iff.mpr ⟨function, hplace⟩
  exact h.monitor.waiter_acts pulseMonitor_silentKeeps pulseMonitor_stable hwaits hreported hrun
    fun _ => hquiet

/-- `start` has taken the lock again, after a request that was served in the meantime. -/
def resumedState : Monitor.State PulseShared PulseCallback :=
  ⟨⟨⟨2, true, true, true, 1, true, false⟩, .inside .start, [.startCall, .startReturn], false⟩,
    .waiter, .checking⟩

/-- It goes on. -/
theorem pulse_wait_returns_reported :
    ∃ (label : Monitor.Label PulseCallback Unit) (w : Monitor.State PulseShared PulseCallback),
      Monitor.Step pulseMonitor resumedState label w ∧ label.ofWaiter = true := by
  have hnil : Monitor.Run pulseMonitor reportedState [] reportedState := .nil _
  have hserved := ((hnil.concat (.leave _ _ rfl)).concat
    (.enter _ (.request (some 2400)) rfl)).concat (.store _ _ rfl)
  have hresumed := ((hserved.concat (.notify _ _ rfl)).concat (.leave _ _ rfl)).concat
    (.relock _ rfl rfl)
  obtain ⟨-, -, label, w, -, hstep, hown⟩ :=
    pulse_wait_returns pulseRun_reported rfl rfl hresumed (by simp)
  exact ⟨label, w, hstep, hown (.inr rfl)⟩

end Sussybard

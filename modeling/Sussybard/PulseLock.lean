import Mathlib.Data.List.Basic

/-!
# The lock of the PulseAudio backend

`Pulse::init`, `Pulse::start` and `Pulse::stop` hold the lock of the threaded
mainloop while they set up a stream or wait for the server. The outcome of every
call into PulseAudio is a parameter here: what it returns, which states a wait
loop sees, and what the success callback reports. What is kept of a run are the
operations on the lock, in order.
-/

namespace Sussybard

/-- The operations on the lock of the threaded mainloop. -/
inductive LockEvent where
  /-- `pa_threaded_mainloop_lock` -/
  | lock
  /-- `pa_threaded_mainloop_wait`, which gives the lock up and takes it again. -/
  | wait
  /-- `pa_threaded_mainloop_unlock` -/
  | unlock
  deriving DecidableEq, Repr

/-- Whether the lock is held after an operation. To take it twice, or to wait or unlock
without it, is a misuse. -/
def lockStep : Option Bool → LockEvent → Option Bool
  | some false, .lock => some true
  | some true, .wait => some true
  | some true, .unlock => some false
  | _, _ => none

/-- Whether the lock is held after these operations, when it was not before. -/
def lockAfter (events : List LockEvent) : Option Bool := events.foldl lockStep (some false)

/-- `pa_context_state` -/
inductive ContextState where
  | unconnected
  | connecting
  | authorizing
  | settingName
  | ready
  | failed
  | terminated
  deriving DecidableEq, Repr

/-- `pa_stream_state` -/
inductive StreamState where
  | unconnected
  | creating
  | ready
  | failed
  | terminated
  deriving DecidableEq, Repr

/-- `state < PA_CONTEXT_READY` -/
def ContextState.belowReady : ContextState → Bool
  | .unconnected | .connecting | .authorizing | .settingName => true
  | .ready | .failed | .terminated => false

/-- `state < PA_STREAM_READY` -/
def StreamState.belowReady : StreamState → Bool
  | .unconnected | .creating => true
  | .ready | .failed | .terminated => false

/-- The members of `Pulse` that its calls decide by; a pointer is modelled by whether it is
set. -/
structure Pulse where
  /-- `channels` -/
  channels : ℕ := 0
  /-- `mainloop` -/
  mainloop : Bool := false
  /-- `context` -/
  context : Bool := false
  /-- `stream` -/
  stream : Bool := false
  /-- `success` -/
  success : Int32 := -1
  /-- `has_success` -/
  hasSuccess : Bool := false
  /-- `is_active` -/
  isActive : Bool := false
  deriving DecidableEq, Repr

/-- How a call returns. -/
structure PulseCall where
  /-- What it returns. -/
  returned : Bool
  /-- What it prints to `stderr`. -/
  stderr : String
  /-- The object after. -/
  pulse : Pulse
  /-- The operations on the lock. -/
  events : List LockEvent
  deriving DecidableEq, Repr

/-- `MaxChannels` -/
def maxChannels : ℕ := 2

/-- The outcomes of the PulseAudio calls that `init` makes, for as far as it comes. -/
structure InitOutcomes where
  /-- `pa_threaded_mainloop_new` returns an object. -/
  mainloopNew : Bool
  /-- `pa_context_new` returns an object. -/
  contextNew : Bool
  /-- What `pa_context_connect` returns. -/
  contextConnect : Int32
  /-- What `pa_threaded_mainloop_start` returns. -/
  mainloopStart : Int32
  /-- The states that the loop waiting for the context sees, one a round. -/
  contextStates : List ContextState
  /-- The state of the context after that loop. -/
  contextState : ContextState
  /-- `pa_stream_new` returns an object. -/
  streamNew : Bool
  /-- What `pa_stream_connect_playback` returns. -/
  connectPlayback : Int32
  /-- The states that the loop waiting for the stream sees, one a round. -/
  streamStates : List StreamState
  /-- The state of the stream after that loop. -/
  streamState : StreamState
  deriving DecidableEq, Repr

/-- `while (state < READY) pa_threaded_mainloop_wait(mainloop)`: the waits until the loop
ends. It is still waiting when it has seen no state that ends it. -/
def waitLoop {S : Type*} (belowReady : S → Bool) : List S → Option (List LockEvent)
  | [] => none
  | state :: states =>
    if belowReady state then (waitLoop belowReady states).map (LockEvent.wait :: ·) else some []

/-- `Pulse::init`, or `none` as long as it waits. -/
def Pulse.init (p : Pulse) (channels : ℕ) (o : InitOutcomes) : Option PulseCall :=
  let p := { p with channels := channels }
  if channels > maxChannels then some ⟨false, "", p, []⟩
  else
    let p := { p with mainloop := o.mainloopNew }
    if !o.mainloopNew then some ⟨false, "", p, []⟩
    else
      let p := { p with context := o.contextNew }
      if !o.contextNew then some ⟨false, "", p, []⟩
      else if o.contextConnect < 0 then some ⟨false, "", p, []⟩
      else if o.mainloopStart < 0 then some ⟨false, "", p, [.lock]⟩
      else
        (waitLoop ContextState.belowReady o.contextStates).bind fun contextWaits =>
          if o.contextState != .ready then
            some ⟨false, "", p, .lock :: contextWaits ++ [.unlock]⟩
          else
            let p := { p with stream := o.streamNew }
            if !o.streamNew then some ⟨false, "", p, .lock :: contextWaits ++ [.unlock]⟩
            else if o.connectPlayback < 0 then
              some ⟨false, "", p, .lock :: contextWaits ++ [.unlock]⟩
            else
              (waitLoop StreamState.belowReady o.streamStates).bind fun streamWaits =>
                let events := .lock :: contextWaits ++ streamWaits ++ [.unlock]
                if o.streamState != .ready then some ⟨false, "", p, events⟩
                else some ⟨true, "", p, events⟩

/-- `stream_success_cb` -/
def streamSuccessCb (p : Pulse) (success : Int32) : Pulse :=
  { p with success := success, hasSuccess := true }

/-- What follows a call of `pa_stream_cork` that succeeds. -/
structure CorkReport where
  /-- How often the wait loop wakes up before the success callback has run. -/
  wakeups : ℕ
  /-- What the success callback reports. -/
  success : Int32
  deriving DecidableEq, Repr

/-- `while (!has_success) pa_threaded_mainloop_wait(mainloop)`. Callbacks run during a wait. -/
def waitForSuccess (p : Pulse) (wakeups : ℕ) (success : Int32) : Pulse × List LockEvent :=
  if p.hasSuccess then (p, [])
  else
    match wakeups with
    | 0 => (streamSuccessCb p success, [.wait])
    | wakeups + 1 =>
      let woken := waitForSuccess p wakeups success
      (woken.1, .wait :: woken.2)

/-- `Pulse::start`. When `pa_stream_cork` fails, no callback comes and `start` does not
return. -/
def Pulse.start (p : Pulse) (cork : Option CorkReport) : Option PulseCall :=
  if p.isActive then some ⟨false, "", p, []⟩
  else
    cork.map fun report =>
      let waited := waitForSuccess { p with hasSuccess := false } report.wakeups report.success
      let p := { waited.1 with isActive := true, hasSuccess := false }
      ⟨decide (p.success ≥ 0), if p.success < 0 then "Pulse::start() failed.\n" else "", p,
        .lock :: waited.2 ++ [.unlock]⟩

/-- `Pulse::stop`, likewise. -/
def Pulse.stop (p : Pulse) (cork : Option CorkReport) : Option PulseCall :=
  if !p.isActive then some ⟨false, "", p, []⟩
  else
    cork.map fun report =>
      let waited := waitForSuccess { p with hasSuccess := false } report.wakeups report.success
      let p := { waited.1 with isActive := false, hasSuccess := false }
      ⟨decide (p.success ≥ 0), if p.success < 0 then "Pulse::stop() failed.\n" else "", p,
        .lock :: waited.2 ++ [.unlock]⟩

/-! ### The lock -/

/-- Waits leave a lock that is held as it is. -/
theorem lockStep_waits {waits : List LockEvent} (hwaits : ∀ e ∈ waits, e = .wait) :
    waits.foldl lockStep (some true) = some true := by
  induction waits with
  | nil => rfl
  | cons e waits ih =>
    obtain rfl := hwaits e List.mem_cons_self
    exact ih fun e he => hwaits e (List.mem_cons_of_mem _ he)

/-- A lock that is taken, waited with and released is not held. -/
theorem lockAfter_section {waits : List LockEvent} (hwaits : ∀ e ∈ waits, e = .wait) :
    lockAfter (.lock :: waits ++ [.unlock]) = some false := by
  have hheld : (LockEvent.lock :: waits).foldl lockStep (some false) = some true :=
    lockStep_waits hwaits
  rw [lockAfter, List.foldl_append, hheld]
  rfl

/-- A wait loop does nothing but wait. -/
theorem waitLoop_waits {S : Type*} {belowReady : S → Bool} {states : List S}
    {waits : List LockEvent} (hloop : waitLoop belowReady states = some waits) :
    ∀ e ∈ waits, e = .wait := by
  induction states generalizing waits with
  | nil => cases hloop
  | cons state states ih =>
    rw [waitLoop] at hloop
    by_cases hbelow : belowReady state
    · rw [if_pos hbelow, Option.map_eq_some_iff] at hloop
      obtain ⟨rest, hrest, rfl⟩ := hloop
      intro e he
      rcases List.mem_cons.mp he with rfl | he
      · rfl
      · exact ih hrest e he
    · rw [if_neg hbelow, Option.some.injEq] at hloop
      subst hloop
      simp

/-- A wait loop ends when it sees a state that is not below ready. -/
theorem waitLoop_isSome {S : Type*} {belowReady : S → Bool} {states : List S}
    (hends : ∃ state ∈ states, belowReady state = false) :
    (waitLoop belowReady states).isSome := by
  induction states with
  | nil => simp at hends
  | cons state states ih =>
    rw [waitLoop]
    by_cases hbelow : belowReady state
    · rw [if_pos hbelow, Option.isSome_map]
      obtain ⟨ending, hmem, hending⟩ := hends
      rcases List.mem_cons.mp hmem with rfl | hmem
      · exact absurd (hbelow.symm.trans hending) (by decide)
      · exact ih ⟨ending, hmem, hending⟩
    · rw [if_neg hbelow]
      rfl

/-- The loop for the success callback waits, and ends with what the callback reported. -/
theorem waitForSuccess_spec {p : Pulse} (hnone : p.hasSuccess = false) (wakeups : ℕ)
    (success : Int32) :
    (waitForSuccess p wakeups success).1 = streamSuccessCb p success ∧
      ∀ e ∈ (waitForSuccess p wakeups success).2, e = .wait := by
  induction wakeups with
  | zero =>
    rw [waitForSuccess, hnone]
    simp
  | succ wakeups ih =>
    rw [waitForSuccess, hnone]
    refine ⟨ih.1, fun e he => ?_⟩
    rcases List.mem_cons.mp he with rfl | he
    · rfl
    · exact ih.2 e he

/-! ### Setting up a stream -/

/-- Each wait loop comes to a state that ends it. -/
structure InitOutcomes.LoopsEnd (o : InitOutcomes) : Prop where
  /-- The loop that waits for the context. -/
  context : ∃ state ∈ o.contextStates, state.belowReady = false
  /-- The loop that waits for the stream. -/
  stream : ∃ state ∈ o.streamStates, state.belowReady = false

/-- `init` comes to `pa_threaded_mainloop_start`, and that call fails. -/
structure InitOutcomes.MainloopStartFails (o : InitOutcomes) (channels : ℕ) : Prop where
  /-- The number of channels is accepted. -/
  channels_le : channels ≤ maxChannels
  /-- There is a mainloop. -/
  mainloopNew : o.mainloopNew = true
  /-- There is a context. -/
  contextNew : o.contextNew = true
  /-- The context connects. -/
  contextConnect : ¬o.contextConnect < 0
  /-- The mainloop does not start. -/
  mainloopStart : o.mainloopStart < 0

/-- When the mainloop does not start, `init` returns with the lock that it took just before. -/
theorem init_of_mainloopStartFails (p : Pulse) {channels : ℕ} {o : InitOutcomes}
    (hfails : o.MainloopStartFails channels) {r : PulseCall} (hcall : p.init channels o = some r) :
    lockAfter r.events = some true := by
  have hchannels : ¬channels > maxChannels := Nat.not_lt.mpr hfails.channels_le
  have hr : p.init channels o = some ⟨false, "", { p with
      channels := channels, mainloop := true, context := true }, [.lock]⟩ := by
    simp only [Pulse.init, if_neg hchannels, hfails.mainloopNew, hfails.contextNew, Bool.not_true,
      Bool.false_eq_true, if_false, if_neg hfails.contextConnect, if_pos hfails.mainloopStart]
  rw [hr, Option.some.injEq] at hcall
  subst hcall
  rfl

/-- Every other way out of `init` is one before the lock, or releases it. -/
theorem init_of_not_mainloopStartFails (p : Pulse) {channels : ℕ} {o : InitOutcomes}
    (hends : o.LoopsEnd) (hnot : ¬o.MainloopStartFails channels) :
    ∃ r, p.init channels o = some r ∧ lockAfter r.events = some false := by
  obtain ⟨contextWaits, hcontext⟩ := Option.isSome_iff_exists.mp (waitLoop_isSome hends.context)
  obtain ⟨streamWaits, hstream⟩ := Option.isSome_iff_exists.mp (waitLoop_isSome hends.stream)
  have hcontextWaits := waitLoop_waits hcontext
  have hwaits : ∀ e ∈ contextWaits ++ streamWaits, e = .wait := by
    intro e he
    rcases List.mem_append.mp he with he | he
    · exact hcontextWaits e he
    · exact waitLoop_waits hstream e he
  simp only [Pulse.init, hcontext, hstream, Option.bind_some]
  by_cases hchannels : channels > maxChannels
  · exact ⟨_, if_pos hchannels, rfl⟩
  rw [if_neg hchannels]
  by_cases hmainloop : o.mainloopNew = true
  swap
  · exact ⟨_, if_pos (by simpa using hmainloop), rfl⟩
  rw [if_neg (by simpa using hmainloop)]
  by_cases hnew : o.contextNew = true
  swap
  · exact ⟨_, if_pos (by simpa using hnew), rfl⟩
  rw [if_neg (by simpa using hnew)]
  by_cases hconnect : o.contextConnect < 0
  · exact ⟨_, if_pos hconnect, rfl⟩
  rw [if_neg hconnect]
  have hstart : ¬o.mainloopStart < 0 := fun hstart =>
    hnot ⟨Nat.not_lt.mp hchannels, hmainloop, hnew, hconnect, hstart⟩
  rw [if_neg hstart]
  -- From here on the lock is held.
  by_cases hready : (o.contextState != .ready) = true
  · exact ⟨_, if_pos hready, lockAfter_section hcontextWaits⟩
  rw [if_neg hready]
  by_cases hstreamNew : (!o.streamNew) = true
  · exact ⟨_, if_pos hstreamNew, lockAfter_section hcontextWaits⟩
  rw [if_neg hstreamNew]
  by_cases hplayback : o.connectPlayback < 0
  · exact ⟨_, if_pos hplayback, lockAfter_section hcontextWaits⟩
  rw [if_neg hplayback]
  by_cases hstreamReady : (o.streamState != .ready) = true
  · exact ⟨_, if_pos hstreamReady, lockAfter_section hwaits⟩
  · exact ⟨_, if_neg hstreamReady, lockAfter_section hwaits⟩

/-- Whether `init` gives the lock back. -/
theorem init_unlocks_iff (p : Pulse) (channels : ℕ) {o : InitOutcomes} (hends : o.LoopsEnd) :
    (∃ r, p.init channels o = some r ∧ lockAfter r.events = some false) ↔
      ¬o.MainloopStartFails channels := by
  refine ⟨?_, init_of_not_mainloopStartFails p hends⟩
  rintro ⟨r, hcall, hunlocked⟩ hfails
  rw [init_of_mainloopStartFails p hfails hcall] at hunlocked
  exact absurd hunlocked (by decide)

/-! ### Starting and stopping it -/

/-- The cork operation succeeds, and its callback reports success, a number other than 0. -/
def ReportsSuccess (cork : Option CorkReport) : Prop :=
  ∃ report, cork = some report ∧ report.success ≠ 0

/-- What a call must do: return with the lock released, and with true only when success was
reported. -/
def Settles (call : Option PulseCall) (cork : Option CorkReport) : Prop :=
  ∃ r, call = some r ∧ lockAfter r.events = some false ∧
    (r.returned = true → ReportsSuccess cork)

/-- The critical section of `start` and `stop`: the callback's report is stored, and the lock is
released. -/
theorem waited_spec (p : Pulse) (report : CorkReport) :
    let waited := waitForSuccess { p with hasSuccess := false } report.wakeups report.success
    waited.1.success = report.success ∧
      lockAfter (.lock :: waited.2 ++ [.unlock]) = some false := by
  obtain ⟨hreported, hwaits⟩ :=
    waitForSuccess_spec (p := { p with hasSuccess := false }) rfl report.wakeups report.success
  refine ⟨?_, lockAfter_section hwaits⟩
  rw [hreported, streamSuccessCb]

/-- A call that waits for the callback of its cork operation and then returns `success >= 0` is
right when the callback reports success, and only then. -/
theorem settles_map_iff {call : CorkReport → PulseCall}
    (hcall : ∀ report, (call report).returned = decide (report.success ≥ 0) ∧
      lockAfter (call report).events = some false) (cork : Option CorkReport) :
    Settles (cork.map call) cork ↔ ReportsSuccess cork := by
  constructor
  · rintro ⟨r, hr, -, hsuccess⟩
    obtain ⟨report, rfl, rfl⟩ := Option.map_eq_some_iff.mp hr
    by_cases hzero : report.success = 0
    · refine hsuccess ?_
      rw [(hcall report).1, hzero]
      decide
    · exact ⟨report, rfl, hzero⟩
  · rintro ⟨report, rfl, hnonzero⟩
    exact ⟨call report, rfl, (hcall report).2, fun _ => ⟨report, rfl, hnonzero⟩⟩

/-- A call that returns false before the lock is right. -/
theorem settles_inactive (p : Pulse) (cork : Option CorkReport) :
    Settles (some ⟨false, "", p, []⟩) cork :=
  ⟨_, rfl, rfl, fun hreturned => Bool.noConfusion hreturned⟩

/-- When `start` does what it should. -/
theorem start_settles_iff (p : Pulse) (cork : Option CorkReport) :
    Settles (p.start cork) cork ↔ p.isActive = true ∨ ReportsSuccess cork := by
  rw [Pulse.start]
  by_cases hactive : p.isActive = true
  · rw [if_pos hactive]
    exact iff_of_true (settles_inactive p cork) (Or.inl hactive)
  rw [if_neg hactive, or_iff_right hactive]
  refine settles_map_iff (fun report => ?_) cork
  obtain ⟨hsuccess, hunlocked⟩ := waited_spec p report
  exact ⟨congrArg (fun success : Int32 => decide (success ≥ 0)) hsuccess, hunlocked⟩

/-- When `stop` does what it should. -/
theorem stop_settles_iff (p : Pulse) (cork : Option CorkReport) :
    Settles (p.stop cork) cork ↔ p.isActive = false ∨ ReportsSuccess cork := by
  rw [Pulse.stop]
  by_cases hactive : p.isActive = true
  swap
  · rw [if_pos (by simpa using hactive)]
    exact iff_of_true (settles_inactive p cork) (Or.inl (by simpa using hactive))
  rw [if_neg (by simpa using hactive), or_iff_right (by simpa using hactive)]
  refine settles_map_iff (fun report => ?_) cork
  obtain ⟨hsuccess, hunlocked⟩ := waited_spec p report
  exact ⟨congrArg (fun success : Int32 => decide (success ≥ 0)) hsuccess, hunlocked⟩

/-- `init` returns with the lock released except where the mainloop does not start. `start` and
`stop` do so, and with true only on success, where they return false at once or the callback
reports success; they do not return at all where the cork operation fails. -/
theorem pulse_calls_settle_iff (p : Pulse) (channels : ℕ) {o : InitOutcomes} (hends : o.LoopsEnd)
    (cork : Option CorkReport) :
    ((∃ r, p.init channels o = some r ∧ lockAfter r.events = some false) ↔
        ¬o.MainloopStartFails channels) ∧
      (Settles (p.start cork) cork ↔ p.isActive = true ∨ ReportsSuccess cork) ∧
      (Settles (p.stop cork) cork ↔ p.isActive = false ∨ ReportsSuccess cork) ∧
      (p.start cork = none ↔ p.isActive = false ∧ cork = none) ∧
      (p.stop cork = none ↔ p.isActive = true ∧ cork = none) := by
  refine ⟨init_unlocks_iff p channels hends, start_settles_iff p cork, stop_settles_iff p cork,
    ?_, ?_⟩
  · rw [Pulse.start]
    by_cases hactive : p.isActive = true
    · simp [hactive]
    · simp [hactive]
  · rw [Pulse.stop]
    by_cases hactive : p.isActive = true
    · simp [hactive]
    · simp [hactive]

/-- A stream is set up and started. -/
theorem pulse_calls_settle_iff_started :
    let o : InitOutcomes := ⟨true, true, 0, 0, [.connecting, .ready], .ready, true, 0,
      [.creating, .ready], .ready⟩
    (∃ r, ({} : Pulse).init 2 o = some r ∧ lockAfter r.events = some false) ∧
      Settles (({} : Pulse).start (some ⟨1, 1⟩)) (some ⟨1, 1⟩) := by
  intro o
  have hends : o.LoopsEnd := ⟨⟨.ready, by decide, rfl⟩, ⟨.ready, by decide, rfl⟩⟩
  obtain ⟨hinit, hstart, -⟩ := pulse_calls_settle_iff {} 2 hends (some ⟨1, 1⟩)
  refine ⟨hinit.mpr fun hfails => ?_, hstart.mpr (Or.inr ⟨_, rfl, by decide⟩)⟩
  exact absurd hfails.mainloopStart (by decide)

/-- When the mainloop does not start, `init` returns with the lock held; when the callback
reports the failure of the cork operation, `start` and `stop` return true. -/
theorem pulse_keeps_lock_and_reports_failure_as_success :
    let o : InitOutcomes := ⟨true, true, 0, -1, [.ready], .ready, true, 0, [.ready], .ready⟩
    (({} : Pulse).init 2 o).map (lockAfter ·.events) = some (some true) ∧
      (({} : Pulse).start (some ⟨0, 0⟩)).map (·.returned) = some true ∧
      (({ isActive := true } : Pulse).stop (some ⟨0, 0⟩)).map (·.returned) = some true := by
  decide

end Sussybard

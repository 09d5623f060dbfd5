import Sussybard.Sessions

/-!
# The WASAPI backend

`WASAPI::start` creates a thread that feeds the device, and `WASAPI::stop` ends
it. The device plays, sets its event and empties its buffer at any time. Every
call of a client object may fail. Any step of one of the three may come between
two steps of another; `dead` is read as it was last written. The backend has a
callback, as the only one that is created does.
-/

namespace Sussybard

/-- The calls of the two client objects that the audio thread makes. -/
inductive ClientCall where
  /-- `GetCurrentPadding` -/
  | getCurrentPadding
  /-- `GetBuffer` -/
  | getBuffer (frames : ℕ)
  /-- `ReleaseBuffer`, with `AUDCLNT_BUFFERFLAGS_SILENT` or without. -/
  | releaseBuffer (frames : ℕ) (silent : Bool)
  /-- `Start` -/
  | start
  /-- `Stop` -/
  | stop
  /-- `Reset` -/
  | reset
  deriving DecidableEq, Repr

/-- A buffer between `GetBuffer` and `ReleaseBuffer`. -/
structure Grant where
  /-- The frames it was asked for. -/
  frames : ℕ
  /-- The frames mixed into it so far. -/
  mixed : ℕ
  deriving DecidableEq, Repr

/-- The stream behind the client objects. -/
structure AudioClient where
  /-- The stream has been started, and not stopped since. -/
  running : Bool := false
  /-- The frames in the buffer that are yet to be played. -/
  padding : ℕ := 0
  /-- The buffer that has been granted. -/
  granted : Option Grant := none
  deriving DecidableEq, Repr

/-- What the client objects ask of a call. A buffer is granted only where there is room for it and
none is granted already; what is released is what was granted, silent or mixed throughout; and a
stream is reset only when it is stopped and no buffer is granted. -/
def ClientCall.Allowed (bufferFrames : ℕ) (client : AudioClient) : ClientCall → Prop
  | .getCurrentPadding | .stop => True
  | .getBuffer frames => client.granted = none ∧ frames ≤ bufferFrames - client.padding
  | .releaseBuffer frames silent =>
    client.granted = some ⟨frames, if silent then 0 else frames⟩
  | .start => client.running = false
  | .reset => client.running = false ∧ client.granted = none

/-- What a call that succeeds does. -/
def ClientCall.apply (client : AudioClient) : ClientCall → AudioClient
  | .getCurrentPadding => client
  | .getBuffer frames => { client with granted := some ⟨frames, 0⟩ }
  | .releaseBuffer frames _ =>
    { client with padding := client.padding + frames, granted := none }
  | .start => { client with running := true }
  | .stop => { client with running := false }
  | .reset => { client with padding := 0 }

/-- Where the audio thread is in `thread_runner`. -/
inductive Runner where
  /-- Before `GetBuffer` in `kick_start`. -/
  | kickGet
  /-- Before `ReleaseBuffer` there. -/
  | kickRelease
  /-- Before `Start` there. -/
  | kickStart
  /-- Before the test of the loop of `thread_runner`. -/
  | test
  /-- Before the first `GetCurrentPadding` in `get_write_avail_blocking`. -/
  | avail
  /-- Before the test of its loop. -/
  | availTest (avail : ℕ)
  /-- Before `WaitForSingleObject`. -/
  | wait
  /-- Before the `GetCurrentPadding` behind it. -/
  | recheck
  /-- Before `GetBuffer`. -/
  | getBuffer (writeAvail : ℕ)
  /-- Before the test of the loop that mixes. -/
  | mix (toRelease writeAvail : ℕ)
  /-- In `mix_samples`. -/
  | mixing (toRelease writeAvail : ℕ)
  /-- Before `ReleaseBuffer`. -/
  | release (toRelease : ℕ)
  /-- Before `Stop`. -/
  | stop
  /-- Before `Reset`. -/
  | reset
  /-- Returned. -/
  | done
  deriving DecidableEq, Repr

/-- The call that the audio thread makes next. -/
def Runner.call (bufferFrames : ℕ) : Runner → Option ClientCall
  | .kickGet => some (.getBuffer bufferFrames)
  | .kickRelease => some (.releaseBuffer bufferFrames true)
  | .kickStart => some .start
  | .avail | .recheck => some .getCurrentPadding
  | .getBuffer writeAvail => some (.getBuffer writeAvail)
  | .release toRelease => some (.releaseBuffer toRelease false)
  | .stop => some .stop
  | .reset => some .reset
  | .test | .availTest _ | .wait | .mix _ _ | .mixing _ _ | .done => none

/-- Where it goes on when the call succeeds. -/
def Runner.succeeds (bufferFrames padding : ℕ) : Runner → Runner
  | .kickGet => .kickRelease
  | .kickRelease => .kickStart
  | .kickStart => .test
  | .avail | .recheck => .availTest (bufferFrames - padding)
  | .getBuffer writeAvail => .mix writeAvail writeAvail
  | .release _ => .test
  | .stop => .reset
  | .reset => .done
  | place => place

/-- Where it goes on when the call fails. -/
def Runner.fails : Runner → Runner
  | .kickGet | .kickRelease | .kickStart | .stop | .reset => .done
  | .avail | .recheck | .getBuffer _ | .release _ => .stop
  | place => place

/-- Where the main thread is in `start` and `stop`. -/
inductive MainPlace where
  /-- In neither. -/
  | outside
  /-- In `on_backend_start`. -/
  | starting
  /-- Before the audio thread is created. -/
  | spawning
  /-- Before the store to `dead`. -/
  | killing
  /-- Before `SetEvent`. -/
  | signalling
  /-- In `join`. -/
  | joining
  /-- Before `on_backend_stop`. -/
  | joined
  /-- In `on_backend_stop`. -/
  | stopping
  deriving DecidableEq, Repr

/-- The members of `WASAPI` that change after `init`, and the threads. -/
structure WasapiState where
  /-- `is_active` -/
  isActive : Bool
  /-- `dead` -/
  dead : Bool
  /-- `thr`, and where the thread is while it is joinable. -/
  thr : Option Runner
  /-- The thread that calls `start` and `stop`. -/
  main : MainPlace
  /-- `pAudioClient` and `pRenderClient` -/
  client : AudioClient
  /-- `audio_event`, which one wait resets. -/
  audioEvent : Bool
  deriving DecidableEq, Repr

/-- A backend after `init`. The constructor does not set `dead`. -/
def WasapiState.init (dead : Bool) : WasapiState where
  isActive := false
  dead := dead
  thr := none
  main := .outside
  client := {}
  audioEvent := false

/-- What a step does, as seen from outside. -/
inductive WasapiLabel where
  /-- The audio thread calls a client object, and the call succeeds or fails. -/
  | call (call : ClientCall) (succeeds : Bool)
  /-- The audio thread enters or leaves `mix_samples`. -/
  | mix (event : CallbackEvent)
  /-- The main thread enters or leaves another function of the callback. -/
  | control (event : CallbackEvent)
  /-- Any other step of the audio thread. -/
  | audio
  /-- Its wait fails. -/
  | waitFails
  /-- Any other step of the main thread. -/
  | main
  /-- A step of the device. -/
  | device
  deriving DecidableEq, Repr

/-- The frames that `mix_samples` has mixed are in the buffer that is granted. -/
def AudioClient.mixes (client : AudioClient) (frames : ℕ) : AudioClient :=
  { client with
    granted := client.granted.map fun grant => { grant with mixed := grant.mixed + frames } }

/-- The atomic steps of the two threads and of the device. -/
inductive WasapiStep (bufferFrames : ℕ) : WasapiState → WasapiLabel → WasapiState → Prop
  | succeeds (s : WasapiState) {place : Runner} {call : ClientCall} (hthr : s.thr = some place)
      (hcall : place.call bufferFrames = some call)
      (hallowed : call.Allowed bufferFrames s.client) :
      WasapiStep bufferFrames s (.call call true)
        { s with
          thr := some (place.succeeds bufferFrames s.client.padding)
          client := call.apply s.client }
  | fails (s : WasapiState) {place : Runner} {call : ClientCall} (hthr : s.thr = some place)
      (hcall : place.call bufferFrames = some call) :
      WasapiStep bufferFrames s (.call call false) { s with thr := some place.fails }
  | test (s : WasapiState) (hthr : s.thr = some .test) :
      WasapiStep bufferFrames s .audio { s with thr := some (if s.dead then .stop else .avail) }
  | availTest (s : WasapiState) {avail : ℕ} (hthr : s.thr = some (.availTest avail)) :
      WasapiStep bufferFrames s .audio
        { s with
          thr := some (if !s.dead && avail == 0 then .wait
            else if avail != 0 then .getBuffer avail else .stop) }
  | wake (s : WasapiState) (hthr : s.thr = some .wait) (hevent : s.audioEvent = true) :
      WasapiStep bufferFrames s .audio { s with thr := some .recheck, audioEvent := false }
  | waitFails (s : WasapiState) (hthr : s.thr = some .wait) :
      WasapiStep bufferFrames s .waitFails { s with thr := some .stop }
  | mixCall (s : WasapiState) {toRelease writeAvail : ℕ}
      (hthr : s.thr = some (.mix toRelease writeAvail)) (hmore : writeAvail ≠ 0) :
      WasapiStep bufferFrames s (.mix (.mixCall (toWrite writeAvail)))
        { s with thr := some (.mixing toRelease writeAvail) }
  | mixReturn (s : WasapiState) {toRelease writeAvail : ℕ}
      (hthr : s.thr = some (.mixing toRelease writeAvail)) :
      WasapiStep bufferFrames s (.mix .mixReturn)
        { s with
          thr := some (.mix toRelease (writeAvail - toWrite writeAvail))
          client := s.client.mixes (toWrite writeAvail) }
  | mixed (s : WasapiState) {toRelease : ℕ} (hthr : s.thr = some (.mix toRelease 0)) :
      WasapiStep bufferFrames s .audio { s with thr := some (.release toRelease) }
  | start (s : WasapiState) (hmain : s.main = .outside) (hactive : s.isActive = false) :
      WasapiStep bufferFrames s (.control .startCall)
        { s with isActive := true, dead := false, main := .starting }
  | started (s : WasapiState) (hmain : s.main = .starting) :
      WasapiStep bufferFrames s (.control .startReturn) { s with main := .spawning }
  | spawn (s : WasapiState) (hmain : s.main = .spawning) :
      WasapiStep bufferFrames s .main { s with thr := some .kickGet, main := .outside }
  | stop (s : WasapiState) (hmain : s.main = .outside) (hactive : s.isActive = true) :
      WasapiStep bufferFrames s .main
        { s with isActive := false, main := if s.thr.isSome then .killing else .joined }
  | kill (s : WasapiState) (hmain : s.main = .killing) :
      WasapiStep bufferFrames s .main { s with dead := true, main := .signalling }
  | signal (s : WasapiState) (hmain : s.main = .signalling) :
      WasapiStep bufferFrames s .main { s with audioEvent := true, main := .joining }
  | join (s : WasapiState) (hmain : s.main = .joining) (hthr : s.thr = some .done) :
      WasapiStep bufferFrames s .main { s with thr := none, main := .joined }
  | stopCall (s : WasapiState) (hmain : s.main = .joined) :
      WasapiStep bufferFrames s (.control .stopCall) { s with main := .stopping }
  | stopReturn (s : WasapiState) (hmain : s.main = .stopping) :
      WasapiStep bufferFrames s (.control .stopReturn) { s with main := .outside }
  | plays (s : WasapiState) {frames : ℕ} (hrunning : s.client.running = true)
      (hframes : frames ≤ s.client.padding) :
      WasapiStep bufferFrames s .device
        { s with client := { s.client with padding := s.client.padding - frames } }
  | signals (s : WasapiState) : WasapiStep bufferFrames s .device { s with audioEvent := true }

/-- Runs of the backend, at any interleaving. -/
inductive WasapiRun (bufferFrames : ℕ) : WasapiState → List WasapiLabel → WasapiState → Prop
  | nil (s : WasapiState) : WasapiRun bufferFrames s [] s
  | concat {s t w : WasapiState} {labels : List WasapiLabel} {label : WasapiLabel}
      (hrun : WasapiRun bufferFrames s labels t) (hstep : WasapiStep bufferFrames t label w) :
      WasapiRun bufferFrames s (labels ++ [label]) w

/-! ### The threads -/

/-- How the members fit the place of the main thread. Outside of `start` and `stop` there is a
thread when the backend is active; a thread that is joined has been told to end, and if it waits,
its event is set. -/
def WasapiState.Consistent (s : WasapiState) : Prop :=
  match s.main with
  | .outside => s.thr.isSome = s.isActive
  | .starting | .spawning => s.isActive = true ∧ s.thr = none
  | .killing => s.isActive = false ∧ s.thr.isSome = true
  | .signalling => s.isActive = false ∧ s.thr.isSome = true ∧ s.dead = true
  | .joining => s.isActive = false ∧ s.thr.isSome = true ∧ s.dead = true ∧
      (s.thr = some .wait → s.audioEvent = true)
  | .joined | .stopping => s.isActive = false ∧ s.thr = none

/-- A backend is consistent after `init`. -/
theorem consistent_init (dead : Bool) : (WasapiState.init dead).Consistent := rfl

/-- A step of the audio thread is consistent unless it starts to wait for nothing. -/
theorem WasapiState.Consistent.audio {s : WasapiState} {place : Runner} (h : s.Consistent)
    (hthr : s.thr = some place) (place' : Runner) (client : AudioClient) (audioEvent : Bool)
    (hwait : s.dead = true → place' ≠ .wait) :
    WasapiState.Consistent
      { s with thr := some place', client := client, audioEvent := audioEvent } := by
  obtain ⟨isActive, dead, thr, main, client, audioEvent⟩ := s
  subst hthr
  cases main with
  | joining =>
    obtain ⟨hactive, -, hdead, -⟩ := h
    exact ⟨hactive, rfl, hdead, fun hwaits => absurd (Option.some.inj hwaits) (hwait hdead)⟩
  | outside | killing | signalling => exact h
  | starting | spawning | joined | stopping => exact absurd h.2 nofun

/-- The audio thread does not wait behind a call. -/
theorem Runner.call_not_wait {bufferFrames : ℕ} {place : Runner} {call : ClientCall}
    (hcall : place.call bufferFrames = some call) (padding : ℕ) :
    place.succeeds bufferFrames padding ≠ .wait ∧ place.fails ≠ .wait := by
  cases place with
  | test | availTest _ | wait | mix _ _ | mixing _ _ | done => cases hcall
  | _ => exact ⟨nofun, nofun⟩

/-- Every step keeps the members consistent. -/
theorem WasapiState.Consistent.step {bufferFrames : ℕ} {s t : WasapiState} {label : WasapiLabel}
    (h : s.Consistent) (hstep : WasapiStep bufferFrames s label t) : t.Consistent := by
  cases hstep with
  | succeeds hthr hcall _ => exact h.audio hthr _ _ _ fun _ => (Runner.call_not_wait hcall _).1
  | fails hthr hcall =>
    exact h.audio hthr _ _ _ fun _ => (Runner.call_not_wait hcall 0).2
  | test hthr =>
    refine h.audio hthr _ _ _ fun hdead => ?_
    simp [hdead]
  | availTest hthr =>
    refine h.audio hthr _ _ _ fun hdead => ?_
    simp only [hdead, Bool.not_true, Bool.false_and, Bool.false_eq_true, if_false]
    split <;> exact nofun
  | wake hthr hevent | waitFails hthr | mixCall hthr _ | mixReturn hthr | mixed hthr =>
    exact h.audio hthr _ _ _ nofun
  | start hmain hactive =>
    rw [Consistent, hmain] at h
    refine ⟨rfl, ?_⟩
    simpa [hactive] using h
  | started hmain =>
    rw [Consistent, hmain] at h
    exact h
  | spawn hmain =>
    rw [Consistent, hmain] at h
    exact h.1.symm
  | stop hmain hactive =>
    rw [Consistent, hmain, hactive] at h
    rw [if_pos h]
    exact ⟨rfl, h⟩
  | kill hmain =>
    rw [Consistent, hmain] at h
    exact ⟨h.1, h.2, rfl⟩
  | signal hmain =>
    rw [Consistent, hmain] at h
    exact ⟨h.1, h.2.1, h.2.2, fun _ => rfl⟩
  | join hmain _ =>
    rw [Consistent, hmain] at h
    exact ⟨h.1, rfl⟩
  | stopCall hmain =>
    rw [Consistent, hmain] at h
    exact h
  | stopReturn hmain =>
    rw [Consistent, hmain] at h
    simp only [Consistent, h.1, h.2]
    rfl
  | plays _ _ => exact h
  | signals =>
    obtain ⟨isActive, dead, thr, main, client, audioEvent⟩ := s
    cases main with
    | joining => exact ⟨h.1, h.2.1, h.2.2.1, fun _ => rfl⟩
    | outside | starting | spawning | killing | signalling | joined | stopping => exact h

/-- So does every run. -/
theorem WasapiState.Consistent.run {bufferFrames : ℕ} {s t : WasapiState}
    {labels : List WasapiLabel} (h : s.Consistent) (hrun : WasapiRun bufferFrames s labels t) :
    t.Consistent := by
  induction hrun with
  | nil => exact h
  | concat _ hstep ih => exact ih.step hstep

/-! ### The session -/

/-- The call of the callback that a step makes or ends. -/
def WasapiLabel.callbackEvent : WasapiLabel → Option CallbackEvent
  | .mix event | .control event => some event
  | _ => none

/-- Where the callback is while there is a thread, or none. -/
def threadPhase : Option Runner → SessionPhase
  | none => .closed
  | some (.mixing _ _) => .mixing
  | some _ => .playing

/-- Where the callback is. -/
def WasapiState.phase (s : WasapiState) : SessionPhase :=
  match s.main with
  | .starting => .starting
  | .spawning | .joined => .playing
  | .stopping => .stopping
  | .outside | .killing | .signalling | .joining => threadPhase s.thr

/-- With a thread, the callback is where the thread is. -/
theorem WasapiState.Consistent.phase_eq {s : WasapiState} {place : Runner} (h : s.Consistent)
    (hthr : s.thr = some place) : s.phase = threadPhase (some place) := by
  obtain ⟨isActive, dead, thr, main, client, audioEvent⟩ := s
  obtain rfl : thr = some place := hthr
  cases main with
  | outside | killing | signalling | joining => rfl
  | starting | spawning | joined | stopping => exact absurd h.2 nofun

/-- A call of a client object is made between calls of the callback. -/
theorem Runner.call_phase {bufferFrames : ℕ} {place : Runner} {call : ClientCall}
    (hcall : place.call bufferFrames = some call) (padding : ℕ) :
    threadPhase (some place) = .playing ∧
      threadPhase (some (place.succeeds bufferFrames padding)) = .playing ∧
      threadPhase (some place.fails) = .playing := by
  cases place with
  | test | availTest _ | wait | mix _ _ | mixing _ _ | done => cases hcall
  | _ => exact ⟨rfl, rfl, rfl⟩

/-- **Refinement.** Each step of the backend is one of the session, or none. -/
theorem WasapiStep.session {bufferFrames : ℕ} {s t : WasapiState} {label : WasapiLabel}
    (h : s.Consistent) (hstep : WasapiStep bufferFrames s label t) :
    match label.callbackEvent with
    | some event => s.phase.next maxNumSamples event = some t.phase
    | none => t.phase = s.phase := by
  have ht := h.step hstep
  cases hstep with
  | succeeds hthr hcall _ =>
    obtain ⟨hbefore, hafter, -⟩ := Runner.call_phase hcall s.client.padding
    exact (ht.phase_eq rfl).trans (hafter.trans (hbefore.symm.trans (h.phase_eq hthr).symm))
  | fails hthr hcall =>
    obtain ⟨hbefore, -, hafter⟩ := Runner.call_phase hcall 0
    exact (ht.phase_eq rfl).trans (hafter.trans (hbefore.symm.trans (h.phase_eq hthr).symm))
  | test hthr =>
    refine (ht.phase_eq rfl).trans (Eq.trans ?_ (h.phase_eq hthr).symm)
    split <;> rfl
  | availTest hthr =>
    refine (ht.phase_eq rfl).trans (Eq.trans ?_ (h.phase_eq hthr).symm)
    split_ifs <;> rfl
  | wake hthr _ | waitFails hthr | mixed hthr =>
    exact (ht.phase_eq rfl).trans (h.phase_eq hthr).symm
  | mixCall hthr hmore =>
    rw [h.phase_eq hthr, ht.phase_eq rfl]
    exact if_pos (toWrite_spec hmore)
  | mixReturn hthr =>
    rw [h.phase_eq hthr, ht.phase_eq rfl]
    rfl
  | start hmain hactive =>
    have hnone : s.thr = none := ht.2
    have hphase : s.phase = .closed := by simp [WasapiState.phase, hmain, hnone, threadPhase]
    rw [hphase]
    rfl
  | started hmain =>
    have hphase : s.phase = .starting := by simp [WasapiState.phase, hmain]
    rw [hphase]
    rfl
  | spawn hmain =>
    have hphase : s.phase = .playing := by simp [WasapiState.phase, hmain]
    rw [hphase]
    rfl
  | stop hmain hactive =>
    have hthr : s.thr.isSome = true := by
      rw [WasapiState.Consistent, hmain] at h
      exact h.trans hactive
    have hphase : s.phase = threadPhase s.thr := by simp [WasapiState.phase, hmain]
    rw [if_pos hthr, hphase]
    rfl
  | kill hmain | signal hmain =>
    have hphase : s.phase = threadPhase s.thr := by simp [WasapiState.phase, hmain]
    rw [hphase]
    rfl
  | join hmain hthr =>
    have hphase : s.phase = .playing := h.phase_eq hthr
    rw [hphase]
    rfl
  | stopCall hmain =>
    have hphase : s.phase = .playing := by simp [WasapiState.phase, hmain]
    rw [hphase]
    rfl
  | stopReturn hmain =>
    have hphase : s.phase = .stopping := by simp [WasapiState.phase, hmain]
    rw [WasapiState.Consistent, hmain] at h
    have hnone : threadPhase s.thr = .closed := by rw [h.2, threadPhase]
    rw [hphase]
    exact congrArg some hnone.symm
  | plays _ _ | signals => rfl

/-- The calls of the callback in a run. -/
def callbackEvents (labels : List WasapiLabel) : List CallbackEvent :=
  labels.filterMap WasapiLabel.callbackEvent

/-- So each run is a run of sessions. -/
theorem WasapiRun.session {bufferFrames : ℕ} {dead : Bool} {s : WasapiState}
    {labels : List WasapiLabel} (hrun : WasapiRun bufferFrames (.init dead) labels s) :
    sessionAfter maxNumSamples (callbackEvents labels) = some s.phase := by
  generalize hinit : WasapiState.init dead = start at hrun
  induction hrun with
  | nil =>
    subst hinit
    rfl
  | @concat t w labels label hrun hstep ih =>
    subst hinit
    have hnext := hstep.session ((consistent_init dead).run hrun)
    rw [callbackEvents, List.filterMap_append]
    cases hevent : label.callbackEvent with
    | some event =>
      rw [hevent] at hnext
      rw [List.filterMap_cons_some hevent]
      exact sessionAfter_concat ih hnext
    | none =>
      rw [hevent] at hnext
      rw [List.filterMap_cons_none hevent, List.filterMap_nil, List.append_nil, hnext]
      exact ih

/-- **Sessions are sound.** In every run, whatever calls of the device fail and however the steps
interleave, the callback is called as its sessions allow: `mix_samples` only after
`on_backend_start` has returned and before `on_backend_stop` is called, for 1 to 256 frames, one
call at a time. A thread is created only when none is joinable, and none is when a `stop` has
returned. -/
theorem wasapi_sessions {bufferFrames : ℕ} {dead : Bool} {s : WasapiState}
    {labels : List WasapiLabel} (hrun : WasapiRun bufferFrames (.init dead) labels s) :
    sessionAfter maxNumSamples (callbackEvents labels) = some s.phase ∧
      (s.main = .spawning → s.thr = none) ∧
      (s.main = .outside → s.isActive = false → s.thr = none) := by
  have h := (consistent_init dead).run hrun
  refine ⟨hrun.session, fun hmain => ?_, fun hmain hactive => ?_⟩
  · rw [WasapiState.Consistent, hmain] at h
    exact h.2
  · rw [WasapiState.Consistent, hmain, hactive] at h
    exact Option.not_isSome_iff_eq_none.mp (Bool.eq_false_iff.mp h)

/-- A backend with a buffer of 480 frames is started. Its thread finds the buffer full; 300 frames
are played, and mixed in two chunks. -/
def mixedLabels : List WasapiLabel :=
  [.control .startCall, .control .startReturn, .main, .call (.getBuffer 480) true,
    .call (.releaseBuffer 480 true) true, .call .start true, .audio, .call .getCurrentPadding true,
    .audio, .device, .device, .audio, .call .getCurrentPadding true, .audio,
    .call (.getBuffer 300) true, .mix (.mixCall 256), .mix .mixReturn, .mix (.mixCall 44),
    .mix .mixReturn, .audio]

/-- The thread is then about to release them. -/
def mixedState : WasapiState :=
  ⟨true, false, some (.release 300), .outside, ⟨true, 180, some ⟨300, 300⟩⟩, false⟩

/-- This is a run. -/
theorem wasapiRun_mixed : WasapiRun 480 (.init false) mixedLabels mixedState := by
  have hnil : WasapiRun 480 (.init false) [] (.init false) := .nil _
  have hspawned := ((hnil.concat (.start _ rfl rfl)).concat (.started _ rfl)).concat
    (.spawn _ rfl)
  have hkicked := ((hspawned.concat (.succeeds _ rfl rfl ⟨rfl, le_rfl⟩)).concat
    (.succeeds _ rfl rfl rfl)).concat (.succeeds _ rfl rfl rfl)
  change WasapiRun _ _ _ ⟨true, false, some .test, .outside, ⟨true, 480, none⟩, false⟩ at hkicked
  have hwoken := (((((hkicked.concat (.test _ rfl)).concat (.succeeds _ rfl rfl trivial)).concat
    (.availTest _ rfl)).concat (@WasapiStep.plays _ _ 300 rfl (by decide))).concat
      (.signals _)).concat (.wake _ rfl rfl)
  change WasapiRun _ _ _ ⟨true, false, some .recheck, .outside, ⟨true, 180, none⟩, false⟩ at hwoken
  have hgranted := ((hwoken.concat (.succeeds _ rfl rfl trivial)).concat
    (.availTest _ rfl)).concat (.succeeds _ rfl rfl ⟨rfl, by decide⟩)
  change WasapiRun _ _ _
    ⟨true, false, some (.mix 300 300), .outside, ⟨true, 180, some ⟨300, 0⟩⟩, false⟩ at hgranted
  exact ((((hgranted.concat (.mixCall _ rfl (by decide))).concat (.mixReturn _ rfl)).concat
    (.mixCall _ rfl (by decide))).concat (.mixReturn _ rfl)).concat (.mixed _ rfl)

/-- Its calls are those of a session that is still open. -/
theorem wasapi_sessions_mixed :
    sessionAfter maxNumSamples [.startCall, .startReturn, .mixCall 256, .mixReturn, .mixCall 44,
      .mixReturn] = some .playing :=
  (wasapi_sessions wasapiRun_mixed).1

end Sussybard

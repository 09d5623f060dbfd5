import Sussybard.Render

/-!
# Sessions of a backend callback

Between `on_backend_start` and `on_backend_stop` a backend calls `mix_samples`,
for at most `max_num_frames` frames at a time. No call begins before the one
before it has returned, on whichever threads they are made. The two backends are
compared with this.
-/

namespace Sussybard

/-- The calls of a `BackendCallback`, with where they begin and where they return. -/
inductive CallbackEvent where
  /-- `on_backend_start` is called. -/
  | startCall
  | startReturn
  /-- `mix_samples` is called. -/
  | mixCall (numFrames : ℕ)
  | mixReturn
  /-- `on_backend_stop` is called. -/
  | stopCall
  | stopReturn
  deriving DecidableEq, Repr

/-- Where a callback is in its session. -/
inductive SessionPhase where
  /-- Before `on_backend_start`, or after `on_backend_stop`. -/
  | closed
  | starting
  /-- Between calls. -/
  | playing
  | mixing
  | stopping
  deriving DecidableEq, Repr

/-- The calls that a callback may get, when no call is for more than `maxNumFrames` frames. -/
def SessionPhase.next (maxNumFrames : ℕ) : SessionPhase → CallbackEvent → Option SessionPhase
  | .closed, .startCall => some .starting
  | .starting, .startReturn => some .playing
  | .playing, .mixCall numFrames =>
    if 0 < numFrames ∧ numFrames ≤ maxNumFrames then some .mixing else none
  | .mixing, .mixReturn => some .playing
  | .playing, .stopCall => some .stopping
  | .stopping, .stopReturn => some .closed
  | _, _ => none

/-- The phases that a call comes between. -/
def CallbackEvent.phases : CallbackEvent → SessionPhase × SessionPhase
  | .startCall => (.closed, .starting)
  | .startReturn => (.starting, .playing)
  | .mixCall _ => (.playing, .mixing)
  | .mixReturn => (.mixing, .playing)
  | .stopCall => (.playing, .stopping)
  | .stopReturn => (.stopping, .closed)

/-- A call that the callback may get comes between its phases. -/
theorem SessionPhase.next_eq_some {maxNumFrames : ℕ} {phase phase' : SessionPhase}
    {event : CallbackEvent} (hnext : phase.next maxNumFrames event = some phase') :
    event.phases = (phase, phase') := by
  unfold next at hnext
  split at hnext
  case h_3 =>
    split at hnext
    · obtain rfl := Option.some.inj hnext
      rfl
    · cases hnext
  case h_7 => cases hnext
  all_goals
    obtain rfl := Option.some.inj hnext
    rfl

/-- The phase after a sequence of calls, if each was one that the callback may get. -/
def SessionPhase.after (maxNumFrames : ℕ) (phase : SessionPhase) (events : List CallbackEvent) :
    Option SessionPhase :=
  events.foldlM (SessionPhase.next maxNumFrames) phase

/-- The phase after all calls of a backend. -/
def sessionAfter (maxNumFrames : ℕ) (events : List CallbackEvent) : Option SessionPhase :=
  SessionPhase.closed.after maxNumFrames events

/-- Calls can be joined. -/
theorem sessionAfter_append (maxNumFrames : ℕ) (events more : List CallbackEvent) :
    sessionAfter maxNumFrames (events ++ more) =
      (sessionAfter maxNumFrames events).bind fun phase => phase.after maxNumFrames more :=
  List.foldlM_append

/-- One call more. -/
theorem sessionAfter_concat {maxNumFrames : ℕ} {events : List CallbackEvent} {event : CallbackEvent}
    {phase phase' : SessionPhase} (hbefore : sessionAfter maxNumFrames events = some phase)
    (hnext : phase.next maxNumFrames event = some phase') :
    sessionAfter maxNumFrames (events ++ [event]) = some phase' := by
  rw [sessionAfter_append, hbefore, Option.bind_some, SessionPhase.after]
  simp [hnext]

/-! ### Chunks -/

/-- The frames of the next call of `mix_samples`. -/
def toWrite (outFrames : ℕ) : ℕ := min outFrames maxNumSamples

/-- A call of `mix_samples` asks for some frames, and for no more than fit its buffers. -/
theorem toWrite_spec {outFrames : ℕ} (hmore : outFrames ≠ 0) :
    0 < toWrite outFrames ∧ toWrite outFrames ≤ maxNumSamples :=
  ⟨Nat.lt_min.mpr ⟨Nat.pos_of_ne_zero hmore, by decide⟩, Nat.min_le_right _ _⟩

/-- The calls of `mix_samples` for a request, one a chunk. -/
def mixEvents (outFrames : ℕ) : List CallbackEvent :=
  if outFrames = 0 then []
  else .mixCall (toWrite outFrames) :: .mixReturn :: mixEvents (outFrames - toWrite outFrames)
termination_by outFrames
decreasing_by
  simp only [toWrite, maxNumSamples]
  omega

/-- A request for no frames makes no calls. -/
theorem mixEvents_zero : mixEvents 0 = [] := by
  rw [mixEvents, if_pos rfl]

/-- A request for a frame or more begins with a call. -/
theorem mixEvents_of_ne {outFrames : ℕ} (hmore : outFrames ≠ 0) :
    mixEvents outFrames =
      .mixCall (toWrite outFrames) :: .mixReturn :: mixEvents (outFrames - toWrite outFrames) := by
  rw [mixEvents, if_neg hmore]

/-- A request may be served between calls. -/
theorem playing_mixEvents (outFrames : ℕ) :
    SessionPhase.playing.after maxNumSamples (mixEvents outFrames) = some .playing := by
  induction outFrames using Nat.strong_induction_on with
  | _ outFrames ih =>
    by_cases hzero : outFrames = 0
    · rw [hzero, mixEvents_zero]
      rfl
    · have hspec := toWrite_spec hzero
      have hcall : SessionPhase.playing.next maxNumSamples (.mixCall (toWrite outFrames)) =
          some .mixing := if_pos hspec
      rw [mixEvents_of_ne hzero, SessionPhase.after, List.foldlM_cons, hcall]
      exact ih _ (Nat.sub_lt (Nat.pos_of_ne_zero hzero) hspec.1)

end Sussybard

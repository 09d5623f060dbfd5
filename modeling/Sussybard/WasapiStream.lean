import Sussybard.Wasapi

/-!
# The stream of the WASAPI backend

What the client objects ask of their calls is met by the audio thread: in each
place the stream is as its next call needs it, and each step keeps this. A call
that fails may leave the stream otherwise, unless it is one that only asks for
room.
-/

namespace Sussybard

/-- A call of the device that may fail without harm: the audio thread then stops the stream and
resets it, or has not started it. -/
def ClientCall.Recoverable : ClientCall → Prop
  | .getCurrentPadding | .getBuffer _ => True
  | .releaseBuffer _ _ | .start | .stop | .reset => False

/-- No call of the device that failed was one that does harm. -/
def WasapiLabel.Recovers : WasapiLabel → Prop
  | .call failed false => failed.Recoverable
  | _ => True

/-- How the stream is while the audio thread is at a place. -/
def AudioClient.At (bufferFrames : ℕ) (client : AudioClient) : Option Runner → Prop
  | none | some .kickGet | some .done => client = ⟨false, 0, none⟩
  | some .kickRelease => client = ⟨false, 0, some ⟨bufferFrames, 0⟩⟩
  | some .kickStart => client = ⟨false, bufferFrames, none⟩
  | some .test | some .avail | some .wait | some .recheck | some .stop =>
    client.running = true ∧ client.granted = none
  | some (.availTest frames) | some (.getBuffer frames) =>
    client.running = true ∧ client.granted = none ∧ frames ≤ bufferFrames - client.padding
  | some (.mix toRelease writeAvail) | some (.mixing toRelease writeAvail) =>
    client.running = true ∧ writeAvail ≤ toRelease ∧
      client.granted = some ⟨toRelease, toRelease - writeAvail⟩
  | some (.release toRelease) =>
    client.running = true ∧ client.granted = some ⟨toRelease, toRelease⟩
  | some .reset => client.running = false ∧ client.granted = none

/-- The next call is one that the stream allows. -/
theorem AudioClient.At.allowed {bufferFrames : ℕ} {client : AudioClient} {place : Runner}
    {call : ClientCall} (h : client.At bufferFrames (some place))
    (hcall : place.call bufferFrames = some call) : call.Allowed bufferFrames client := by
  cases place with
  | test | availTest _ | wait | mix _ _ | mixing _ _ | done => cases hcall
  | kickGet =>
    obtain rfl := Option.some.inj hcall
    obtain rfl : client = ⟨false, 0, none⟩ := h
    exact ⟨rfl, le_rfl⟩
  | kickRelease =>
    obtain rfl := Option.some.inj hcall
    obtain rfl : client = ⟨false, 0, some ⟨bufferFrames, 0⟩⟩ := h
    rfl
  | kickStart =>
    obtain rfl := Option.some.inj hcall
    obtain rfl : client = ⟨false, bufferFrames, none⟩ := h
    rfl
  | avail | recheck | stop =>
    obtain rfl := Option.some.inj hcall
    trivial
  | getBuffer _ | release _ =>
    obtain rfl := Option.some.inj hcall
    exact h.2
  | reset =>
    obtain rfl := Option.some.inj hcall
    exact h

/-- When it succeeds, the stream is as the next place has it. -/
theorem AudioClient.At.succeeds {bufferFrames : ℕ} {client : AudioClient} {place : Runner}
    {call : ClientCall} (h : client.At bufferFrames (some place))
    (hcall : place.call bufferFrames = some call) :
    (call.apply client).At bufferFrames
      (some (place.succeeds bufferFrames client.padding)) := by
  cases place with
  | test | availTest _ | wait | mix _ _ | mixing _ _ | done => cases hcall
  | kickGet =>
    obtain rfl := Option.some.inj hcall
    obtain rfl : client = ⟨false, 0, none⟩ := h
    rfl
  | kickRelease =>
    obtain rfl := Option.some.inj hcall
    obtain rfl : client = ⟨false, 0, some ⟨bufferFrames, 0⟩⟩ := h
    simp [At, ClientCall.apply, Runner.succeeds]
  | kickStart =>
    obtain rfl := Option.some.inj hcall
    obtain rfl : client = ⟨false, bufferFrames, none⟩ := h
    exact ⟨rfl, rfl⟩
  | avail | recheck =>
    obtain rfl := Option.some.inj hcall
    exact ⟨h.1, h.2, le_rfl⟩
  | getBuffer writeAvail =>
    obtain rfl := Option.some.inj hcall
    exact ⟨h.1, le_rfl, by simp [ClientCall.apply]⟩
  | release toRelease =>
    obtain rfl := Option.some.inj hcall
    exact ⟨h.1, rfl⟩
  | stop =>
    obtain rfl := Option.some.inj hcall
    exact ⟨rfl, h.2⟩
  | reset =>
    obtain rfl := Option.some.inj hcall
    obtain ⟨running, padding, granted⟩ := client
    obtain ⟨rfl, rfl⟩ : running = false ∧ granted = none := h
    rfl

/-- When it fails, and that does no harm, so it is. -/
theorem AudioClient.At.fails {bufferFrames : ℕ} {client : AudioClient} {place : Runner}
    {call : ClientCall} (h : client.At bufferFrames (some place))
    (hcall : place.call bufferFrames = some call) (hrecoverable : call.Recoverable) :
    client.At bufferFrames (some place.fails) := by
  cases place with
  | test | availTest _ | wait | mix _ _ | mixing _ _ | done => cases hcall
  | kickGet => exact h
  | avail | recheck => exact h
  | getBuffer _ => exact ⟨h.1, h.2.1⟩
  | kickRelease | kickStart | release _ | stop | reset =>
    obtain rfl := Option.some.inj hcall
    exact hrecoverable.elim

/-- Playing makes room. -/
theorem AudioClient.At.plays {bufferFrames : ℕ} {client : AudioClient} {thr : Option Runner}
    (h : client.At bufferFrames thr) (hrunning : client.running = true) (frames : ℕ) :
    AudioClient.At bufferFrames { client with padding := client.padding - frames } thr := by
  have hmore : bufferFrames - client.padding ≤ bufferFrames - (client.padding - frames) :=
    Nat.sub_le_sub_left (Nat.sub_le _ _) _
  cases thr with
  | none =>
    obtain rfl : client = ⟨false, 0, none⟩ := h
    cases hrunning
  | some place =>
    cases place with
    | kickGet | done =>
      obtain rfl : client = ⟨false, 0, none⟩ := h
      cases hrunning
    | kickRelease =>
      obtain rfl : client = ⟨false, 0, some ⟨bufferFrames, 0⟩⟩ := h
      cases hrunning
    | kickStart =>
      obtain rfl : client = ⟨false, bufferFrames, none⟩ := h
      cases hrunning
    | availTest _ | getBuffer _ => exact ⟨h.1, h.2.1, h.2.2.trans hmore⟩
    | test | avail | wait | recheck | stop | mix _ _ | mixing _ _ | release _ | reset => exact h

/-- Every step keeps the stream as the place of the audio thread has it. -/
theorem WasapiStep.at {bufferFrames : ℕ} {s t : WasapiState} {label : WasapiLabel}
    (hconsistent : s.Consistent) (h : s.client.At bufferFrames s.thr)
    (hstep : WasapiStep bufferFrames s label t) (hrecovers : label.Recovers) :
    t.client.At bufferFrames t.thr := by
  cases hstep with
  | succeeds hthr hcall _ =>
    rw [hthr] at h
    exact h.succeeds hcall
  | fails hthr hcall =>
    rw [hthr] at h
    exact h.fails hcall hrecovers
  | test hthr =>
    rw [hthr] at h
    split <;> exact h
  | availTest hthr =>
    rw [hthr] at h
    split_ifs
    · exact ⟨h.1, h.2.1⟩
    · exact h
    · exact ⟨h.1, h.2.1⟩
  | wake hthr _ | waitFails hthr | mixCall hthr _ =>
    rw [hthr] at h
    exact h
  | mixReturn hthr =>
    rw [hthr] at h
    obtain ⟨hrunning, hle, hgranted⟩ := h
    refine ⟨hrunning, (Nat.sub_le _ _).trans hle, ?_⟩
    simp only [AudioClient.mixes, hgranted, Option.map_some, toWrite]
    congr 2
    omega
  | mixed hthr =>
    rw [hthr] at h
    exact ⟨h.1, h.2.2⟩
  | start _ _ | started _ | stop _ _ | kill _ | signal _ | stopCall _ | stopReturn _
  | signals => exact h
  | spawn hmain =>
    rw [WasapiState.Consistent, hmain] at hconsistent
    rw [hconsistent.2] at h
    exact h
  | join _ hthr =>
    rw [hthr] at h
    exact h
  | plays hrunning _ => exact h.plays hrunning _

/-- So does every run in which no failure did harm. -/
theorem WasapiRun.at {bufferFrames : ℕ} {dead : Bool} {s : WasapiState}
    {labels : List WasapiLabel} (hrun : WasapiRun bufferFrames (.init dead) labels s)
    (hrecovers : ∀ label ∈ labels, label.Recovers) : s.client.At bufferFrames s.thr := by
  generalize hinit : WasapiState.init dead = start at hrun
  induction hrun with
  | nil =>
    subst hinit
    rfl
  | concat hrun hstep ih =>
    subst hinit
    exact hstep.at ((consistent_init dead).run hrun)
      (ih fun label hmem => hrecovers label (List.mem_append_left _ hmem))
      (hrecovers _ (List.mem_append_right _ (List.mem_singleton_self _)))

/-- The frames in the buffer that are granted or yet to be played. -/
def AudioClient.held (client : AudioClient) : ℕ :=
  client.padding + (client.granted.elim 0 Grant.frames)

/-- Calls that are allowed never put more into the buffer than fits. -/
theorem ClientCall.Allowed.held_le {bufferFrames : ℕ} {client : AudioClient} {call : ClientCall}
    (hallowed : call.Allowed bufferFrames client) (h : client.held ≤ bufferFrames) :
    (call.apply client).held ≤ bufferFrames := by
  unfold AudioClient.held at h ⊢
  cases call with
  | getCurrentPadding | start | stop => exact h
  | getBuffer frames =>
    obtain ⟨hnone, hroom⟩ := hallowed
    rw [hnone] at h
    simp only [apply, Option.elim_some, Option.elim_none] at h ⊢
    omega
  | releaseBuffer frames silent =>
    rw [show client.granted = some _ from hallowed] at h
    exact h
  | reset =>
    rw [hallowed.2] at h
    simp [apply, hallowed.2]

/-- So `buffer_frames - padding` does not wrap. -/
theorem WasapiRun.held_le {bufferFrames : ℕ} {dead : Bool} {s : WasapiState}
    {labels : List WasapiLabel} (hrun : WasapiRun bufferFrames (.init dead) labels s) :
    s.client.held ≤ bufferFrames := by
  generalize hinit : WasapiState.init dead = start at hrun
  induction hrun with
  | nil =>
    subst hinit
    exact Nat.zero_le _
  | concat _ hstep h =>
    subst hinit
    cases hstep with
    | succeeds _ _ hallowed => exact hallowed.held_le h
    | mixReturn _ =>
      unfold AudioClient.held AudioClient.mixes at *
      cases hgranted : AudioClient.granted _ with
      | none => simpa [hgranted] using h
      | some grant => simpa [hgranted] using h
    | plays _ _ =>
      unfold AudioClient.held at *
      dsimp only
      omega
    | _ => exact h

/-- **The stream is used as it allows.** Over any number of starts and stops, as long as the only
calls that failed were of `GetCurrentPadding` and `GetBuffer`, the next call of the audio thread is
one that the stream allows: there is room for each buffer, and it is released with the frames it
was granted for, all of them mixed, or as silence with none of them mixed, which `kick_start` does.
When there is no audio thread, the stream is stopped and empty; and it never holds more than the
buffer has room for. -/
theorem wasapi_calls_allowed {bufferFrames : ℕ} {dead : Bool} {s : WasapiState}
    {labels : List WasapiLabel} (hrun : WasapiRun bufferFrames (.init dead) labels s)
    (hrecovers : ∀ label ∈ labels, label.Recovers) :
    (∀ place call, s.thr = some place → place.call bufferFrames = some call →
        call.Allowed bufferFrames s.client) ∧
      (s.thr = none → s.client = {}) ∧
      s.client.padding ≤ bufferFrames := by
  have h := hrun.at hrecovers
  refine ⟨fun place call hthr hcall => ?_, fun hthr => ?_, ?_⟩
  · rw [hthr] at h
    exact h.allowed hcall
  · rw [hthr] at h
    exact h
  · exact (Nat.le_add_right _ _).trans hrun.held_le

/-- The frames that were mixed may be released. -/
theorem wasapi_calls_allowed_mixed :
    (ClientCall.releaseBuffer 300 false).Allowed 480 mixedState.client := by
  refine (wasapi_calls_allowed wasapiRun_mixed ?_).1 _ _ rfl rfl
  simp [mixedLabels, WasapiLabel.Recovers]

end Sussybard

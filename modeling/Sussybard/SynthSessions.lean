import Sussybard.SynthFifo
import Sussybard.Wasapi

/-!
# The synth behind the WASAPI backend

The callback of the backend is a `Synth`. Its ring is reset by `on_backend_start`
and drained by `mix_samples`, and the main thread posts to it while the backend
is started. All of this may interleave as the steps of the backend do. Resets
are not assumed to find the ring idle: one that comes while a call of
`mix_samples` is under way leaves it under way.
-/

namespace Sussybard

open Relation

/-- The backend and the synth that it calls. -/
structure AudioSystem where
  /-- The backend. -/
  backend : WasapiState
  /-- The ring of the synth, with the two threads that use it. -/
  ring : RingState

/-- The system after `init`. -/
def AudioSystem.init (dead : Bool) (synth : Synth) : AudioSystem where
  backend := .init dead
  ring := .start synth

/-- `on_backend_start`, with the logs of the session before put away. -/
def RingState.restart (r : RingState) : RingState :=
  { RingState.start r.synth with posting := r.posting, mixing := r.mixing }

/-- A call of `mix_samples` begins, with the load of its target. -/
def RingState.beginMix (r : RingState) : RingState :=
  { r with mixing := some ⟨r.synth.atomicWriteCount, r.published⟩ }

/-- What a call of the callback does to the ring. A call of `mix_samples` returns when its loop
has ended. -/
inductive CallEffect : Option CallbackEvent → RingState → RingState → Prop
  | none (r : RingState) : CallEffect none r r
  | startCall (r : RingState) : CallEffect (some .startCall) r r
  | startReturn (r : RingState) : CallEffect (some .startReturn) r r.restart
  | mixCall (r : RingState) (numFrames : ℕ) : CallEffect (some (.mixCall numFrames)) r r.beginMix
  | mixReturn {r r' : RingState} (hfinish : RingStep r .finish r') :
      CallEffect (some .mixReturn) r r'
  | stopCall (r : RingState) : CallEffect (some .stopCall) r r
  | stopReturn (r : RingState) : CallEffect (some .stopReturn) r r

/-- The steps of the system: those of the backend, of the loop of `mix_samples`, and of posts. The
main thread ends a post before it starts or stops the backend. -/
inductive AudioStep (bufferFrames : ℕ) : AudioSystem → Option RingAction → AudioSystem → Prop
  | backend (s : AudioSystem) {label : WasapiLabel} {backend : WasapiState} {ring : RingState}
      (hstep : WasapiStep bufferFrames s.backend label backend)
      (heffect : CallEffect label.callbackEvent s.ring ring)
      (hidle : s.backend.main ≠ backend.main → s.ring.posting = false) :
      AudioStep bufferFrames s none ⟨backend, ring⟩
  | take (s : AudioSystem) {ring : RingState} (hstep : RingStep s.ring .take ring) :
      AudioStep bufferFrames s (some .take) { s with ring := ring }
  | write (s : AudioSystem) {ring : RingState} {word : UInt32}
      (hmain : s.backend.main = .outside) (hactive : s.backend.isActive = true)
      (hstep : RingStep s.ring (.write word) ring) :
      AudioStep bufferFrames s (some (.write word)) { s with ring := ring }
  | publish (s : AudioSystem) {ring : RingState} (hstep : RingStep s.ring .publish ring) :
      AudioStep bufferFrames s (some .publish) { s with ring := ring }

/-- Runs of the system in which every post finds room in the ring. -/
def AudioRun (bufferFrames : ℕ) : AudioSystem → AudioSystem → Prop :=
  ReflTransGen fun s t =>
    ∃ action, AudioStep bufferFrames s action t ∧ ∀ a ∈ action, RoomToWrite s.ring a

/-- What holds in every state: the ring is drained when the backend mixes, and no post is under
way while the backend is started or stopped. -/
structure AudioInv (s : AudioSystem) : Prop where
  backend : s.backend.Consistent
  ring : GuardedInv s.ring
  mixing_iff : s.ring.mixing ≠ none ↔ s.backend.phase = .mixing
  idle : s.backend.main ≠ .outside → s.ring.posting = false

/-- The system is sound after `init`. -/
theorem audioInv_init (dead : Bool) (synth : Synth) : AudioInv (.init dead synth) where
  backend := consistent_init dead
  ring := guardedInv_start synth
  mixing_iff := iff_of_false (fun hne => hne rfl) nofun
  idle := fun _ => rfl

/-- A reset that finds the ring idle starts it anew. -/
theorem restart_eq_start {r : RingState} (hposting : r.posting = false)
    (hmixing : r.mixing = none) : r.restart = RingState.start r.synth := by
  rw [RingState.restart, hposting, hmixing]
  rfl

/-- The main thread is in `on_backend_start` in that phase only. -/
theorem main_of_starting {s : WasapiState} (hphase : s.phase = .starting) :
    s.main = .starting := by
  have hthread : threadPhase s.thr ≠ .starting := by
    unfold threadPhase
    split <;> exact nofun
  unfold WasapiState.phase at hphase
  cases hmain : s.main with
  | starting => rfl
  | spawning | joined | stopping =>
    rw [hmain] at hphase
    cases hphase
  | outside | killing | signalling | joining =>
    rw [hmain] at hphase
    exact absurd hphase hthread

/-- What a call of the callback leaves behind, when it is one of the session. -/
theorem AudioInv.callEffect {s : AudioSystem} {event : CallbackEvent} {backend : WasapiState}
    {ring : RingState} (h : AudioInv s)
    (hnext : s.backend.phase.next maxNumSamples event = some backend.phase)
    (heffect : CallEffect (some event) s.ring ring) :
    GuardedInv ring ∧ (ring.mixing ≠ none ↔ backend.phase = .mixing) ∧
      (s.ring.posting = false → ring.posting = false) := by
  have hphases := SessionPhase.next_eq_some hnext
  have hmixing := h.mixing_iff
  cases heffect with
  | startCall | stopCall | stopReturn =>
    obtain ⟨hbefore, hafter⟩ := Prod.mk.inj hphases
    rw [← hbefore] at hmixing
    rw [← hafter]
    exact ⟨h.ring, hmixing.trans (iff_of_false nofun nofun), id⟩
  | startReturn =>
    obtain ⟨hbefore, hafter⟩ := Prod.mk.inj hphases
    have hmain := main_of_starting hbefore.symm
    have hposting := h.idle (by simp [hmain])
    have hnone : s.ring.mixing = none := by
      by_contra hsome
      exact absurd (hbefore.trans (hmixing.mp hsome)) nofun
    rw [restart_eq_start hposting hnone, ← hafter]
    exact ⟨guardedInv_start _, iff_of_false (fun hne => hne rfl) nofun, fun _ => rfl⟩
  | mixCall _ =>
    obtain ⟨hbefore, hafter⟩ := Prod.mk.inj hphases
    have hnone : s.ring.mixing = none := by
      by_contra hsome
      exact absurd (hbefore.trans (hmixing.mp hsome)) nofun
    rw [← hafter]
    exact ⟨h.ring.step (.load _ hnone) trivial, iff_of_true nofun rfl, id⟩
  | mixReturn hfinish =>
    obtain ⟨hbefore, hafter⟩ := Prod.mk.inj hphases
    rw [← hafter]
    have hring := h.ring.step hfinish trivial
    cases hfinish with
    | finish d _ _ => exact ⟨hring, iff_of_false (fun hne => hne rfl) nofun, id⟩

/-- Every step whose post finds room keeps the system sound. -/
theorem AudioInv.step {bufferFrames : ℕ} {s t : AudioSystem} {action : Option RingAction}
    (h : AudioInv s) (hstep : AudioStep bufferFrames s action t)
    (hroom : ∀ a ∈ action, RoomToWrite s.ring a) : AudioInv t := by
  cases hstep with
  | @backend label backend ring hstep heffect hidle =>
    have hsession := hstep.session h.backend
    have hquiet : backend.main ≠ .outside → s.ring.posting = false := by
      intro hmain
      by_cases hsame : s.backend.main = backend.main
      · exact h.idle (hsame ▸ hmain)
      · exact hidle hsame
    cases hevent : label.callbackEvent with
    | none =>
      rw [hevent] at hsession heffect
      cases heffect
      exact ⟨h.backend.step hstep, h.ring, h.mixing_iff.trans (by rw [← hsession]), hquiet⟩
    | some event =>
      rw [hevent] at hsession heffect
      obtain ⟨hring, hmixing, hposting⟩ := h.callEffect hsession heffect
      exact ⟨h.backend.step hstep, hring, hmixing, fun hmain => hposting (hquiet hmain)⟩
  | take hstep =>
    have hring := h.ring.step hstep trivial
    cases hstep with
    | take d hmixing _ => exact ⟨h.backend, hring, h.mixing_iff, h.idle⟩
  | write hmain hactive hstep =>
    have hring := h.ring.step hstep (hroom _ rfl)
    cases hstep with
    | write word _ => exact ⟨h.backend, hring, h.mixing_iff, fun hnot => absurd hmain hnot⟩
  | publish hstep =>
    have hring := h.ring.step hstep trivial
    cases hstep with
    | publish _ => exact ⟨h.backend, hring, h.mixing_iff, fun _ => rfl⟩

/-- So does every run in which every post finds room. -/
theorem AudioInv.run {bufferFrames : ℕ} {s t : AudioSystem} (h : AudioInv s)
    (hrun : AudioRun bufferFrames s t) : AudioInv t := by
  induction hrun with
  | refl => exact h
  | tail _ hstep ih =>
    obtain ⟨action, haction, hroom⟩ := hstep
    exact ih.step haction hroom

/-- **Every session plays its own commands, in order.** In every run of the backend and the synth
in which every post finds room, over any number of starts and stops, whatever calls of the device
fail: `mix_samples` has taken, since the last `on_backend_start`, the first of the words posted
since then; and a start finds no post and no call of `mix_samples` under way. -/
theorem sessions_play_in_order {bufferFrames : ℕ} {dead : Bool} {synth : Synth} {s : AudioSystem}
    (hrun : AudioRun bufferFrames (.init dead synth) s) :
    s.ring.taken <+: s.ring.published ∧ s.ring.published <+: s.ring.posted ∧
      (s.backend.main = .starting → s.ring.posting = false ∧ s.ring.mixing = none) := by
  have h := (audioInv_init dead synth).run hrun
  have htaken := GuardedInv.taken_prefix h.ring
  refine ⟨htaken, h.ring.published_prefix, fun hmain => ?_⟩
  have hphase : s.backend.phase = .starting := by rw [WasapiState.phase, hmain]
  refine ⟨h.idle (by simp [hmain]), ?_⟩
  by_contra hsome
  exact absurd (hphase.symm.trans (h.mixing_iff.mp hsome)) (by simp)

/-- A run goes on with a step of the backend. -/
theorem AudioRun.backend {bufferFrames : ℕ} {s t : AudioSystem} {label : WasapiLabel}
    {backend : WasapiState} {ring : RingState} (hrun : AudioRun bufferFrames s t)
    (hstep : WasapiStep bufferFrames t.backend label backend)
    (heffect : CallEffect label.callbackEvent t.ring ring)
    (hidle : t.backend.main ≠ backend.main → t.ring.posting = false) :
    AudioRun bufferFrames s ⟨backend, ring⟩ :=
  hrun.tail ⟨none, .backend t hstep heffect hidle, nofun⟩

/-- Or with one of the ring. -/
theorem AudioRun.ring {bufferFrames : ℕ} {s t w : AudioSystem} {action : RingAction}
    (hrun : AudioRun bufferFrames s t) (hstep : AudioStep bufferFrames t (some action) w)
    (hroom : RoomToWrite t.ring action) : AudioRun bufferFrames s w := by
  refine hrun.tail ⟨some action, hstep, ?_⟩
  rintro _ ⟨⟩
  exact hroom

/-- A whole call of `start` ends with a new audio thread and the ring reset. -/
theorem AudioRun.started {bufferFrames : ℕ} {s t : AudioSystem}
    (hrun : AudioRun bufferFrames s t) (hmain : t.backend.main = .outside)
    (hactive : t.backend.isActive = false) (hidle : t.ring.posting = false) :
    AudioRun bufferFrames s
      ⟨{ t.backend with isActive := true, dead := false, thr := some .kickGet },
        t.ring.restart⟩ := by
  have hcalled := hrun.backend (.start _ hmain hactive) (.startCall _) fun _ => hidle
  have hreturned := hcalled.backend (.started _ rfl) (.startReturn _) fun _ => hidle
  have hspawned := hreturned.backend (.spawn _ rfl) (.none _) fun _ => hidle
  rw [← hmain] at hspawned
  exact hspawned

/-- The main thread posts a word for which there is room. -/
theorem AudioRun.post {bufferFrames : ℕ} {s t : AudioSystem} (hrun : AudioRun bufferFrames s t)
    (hmain : t.backend.main = .outside) (hactive : t.backend.isActive = true)
    (hidle : t.ring.posting = false) (word : UInt32) (hroom : RoomToWrite t.ring (.write word)) :
    AudioRun bufferFrames s { t with ring := t.ring.post word } := by
  obtain ⟨ring, hwrite, hpublish⟩ := post_steps hidle word
  exact (hrun.ring (.write t hmain hactive hwrite) hroom).ring (.publish _ hpublish) trivial

/-- A synth whose ring is empty. -/
def emptySynth : Synth := ⟨Vector.replicate ringSize 0, 0, 0, 0⟩

/-- Its ring after the post of a note. -/
def oneNote : RingState := (RingState.start emptySynth).post (noteOnWord 0 48)

/-- A backend is started, and a note is posted before the stream is. -/
theorem audioRun_oneNote :
    AudioRun 480 (.init false emptySynth)
      ⟨⟨true, false, some .kickGet, .outside, {}, false⟩, oneNote⟩ := by
  have hnil : AudioRun 480 (.init false emptySynth) (.init false emptySynth) := .refl
  exact (hnil.started rfl rfl rfl).post rfl rfl rfl _ (by decide : (0 : UInt32) - 0 < 4096)

/-- The ring of the next session after the posts of two notes. -/
def twoNotes : RingState :=
  ((RingState.start oneNote.synth).post (noteOnWord 0 50)).post (noteOnWord 0 52)

/-- The stream of that session fails before the note is taken. The backend is stopped and started
again, and two notes are posted. -/
theorem audioRun_twoNotes :
    AudioRun 480 (.init false emptySynth)
      ⟨⟨true, false, some .kickGet, .outside, {}, true⟩, twoNotes⟩ := by
  have hfailed := audioRun_oneNote.backend (.fails _ rfl rfl) (.none _) nofun
  have hsignalled := ((hfailed.backend (.stop _ rfl rfl) (.none _) fun _ => rfl).backend
    (.kill _ rfl) (.none _) fun _ => rfl).backend (.signal _ rfl) (.none _) fun _ => rfl
  have hstopped := ((hsignalled.backend (.join _ rfl rfl) (.none _) fun _ => rfl).backend
    (.stopCall _ rfl) (.stopCall _) fun _ => rfl).backend (.stopReturn _ rfl) (.stopReturn _)
      fun _ => rfl
  have hstarted := hstopped.started rfl rfl rfl
  have hfirst := hstarted.post rfl rfl rfl (noteOnWord 0 50) (by decide : (0 : UInt32) - 0 < 4096)
  exact hfirst.post rfl rfl rfl (noteOnWord 0 52) (by decide : (1 : UInt32) - 0 < 4096)

/-- The buffer is played, and the first call of `mix_samples` takes the two notes of the session,
and not that of the session before. -/
theorem sessions_play_in_order_restarted :
    ∃ s, AudioRun 480 (.init false emptySynth) s ∧
      s.ring.taken = [noteOnWord 0 50, noteOnWord 0 52] := by
  have hkicked := ((audioRun_twoNotes.backend (.succeeds _ rfl rfl ⟨rfl, le_rfl⟩) (.none _)
    nofun).backend (.succeeds _ rfl rfl rfl) (.none _) nofun).backend
      (.succeeds _ rfl rfl rfl) (.none _) nofun
  change AudioRun _ _ ⟨⟨true, false, some .test, .outside, ⟨true, 480, none⟩, true⟩, twoNotes⟩
    at hkicked
  have hroom := ((hkicked.backend (@WasapiStep.plays _ _ 480 rfl le_rfl) (.none _) nofun).backend
    (.test _ rfl) (.none _) nofun).backend (.succeeds _ rfl rfl trivial) (.none _) nofun
  change AudioRun _ _ ⟨⟨true, false, some (.availTest 480), .outside, ⟨true, 0, none⟩, true⟩,
    twoNotes⟩ at hroom
  have hmixing := ((hroom.backend (.availTest _ rfl) (.none _) nofun).backend
    (.succeeds _ rfl rfl ⟨rfl, le_rfl⟩) (.none _) nofun).backend (.mixCall _ rfl (by decide))
      (.mixCall _ _) nofun
  have htarget : twoNotes.beginMix.mixing = some ⟨2, [noteOnWord 0 50, noteOnWord 0 52]⟩ := rfl
  have hfirst := hmixing.ring (.take _ (.take _ _ htarget (by decide))) trivial
  have hsecond := hfirst.ring (.take _ (.take _ _ htarget (by decide))) trivial
  exact ⟨_, hsecond, (sessions_play_in_order hsecond).1.eq_of_length rfl⟩

end Sussybard

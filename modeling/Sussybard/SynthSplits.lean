import Mathlib
import Sussybard.SynthFifo
import Sussybard.General.Transducer

/-!
# The splits of the synth

`mix_samples` applies the commands that wait to the voice of their split, and
then lets both voices add their sound to the same buffers. The voices themselves
are not part of the repository: what they do is left open here, except that
rendering adds to the buffers and does not look at them. Each split then sounds
as it would if the other got no commands.
-/

namespace Sussybard

open Transducer Relation

/-- The functions of the FM synth library that `Synth` calls, for voices `V` and samples `S`. -/
structure FmSynth (V S : Type*) where
  /-- `fmsynth_note_on`, at the velocity 255. -/
  noteOn : V → UInt8 → V
  /-- `fmsynth_note_off` -/
  noteOff : V → UInt8 → V
  /-- `fmsynth_render`, on the buffers of the left and the right channel. -/
  render : V → ℕ → List S → List S → V × List S × List S

/-- The sound of one voice for some frames. -/
structure VoiceSound (S : Type*) where
  /-- `num_frames` -/
  frames : ℕ
  /-- The left channel. -/
  left : List S
  /-- The right channel. -/
  right : List S

variable {V S : Type*}

/-- The command of a word, as `mix_samples` gives it to its voice. -/
def FmSynth.command (fm : FmSynth V S) (voice : V) (word : UInt32) : V :=
  if word &&& 0x80000000 != 0 then fm.noteOn voice word.toUInt8 else fm.noteOff voice word.toUInt8

/-- The index of the voice of a word, `(note >> 16) & (NumSplits - 1)`. -/
def splitOf (word : UInt32) : Fin 2 :=
  ⟨((word >>> 16) &&& (numSplits - 1)).toNat, by
    rw [UInt32.toNat_and]
    exact Nat.lt_succ_of_le Nat.and_le_right⟩

/-- `Synth`, with its voices. -/
structure VoicedSynth (V : Type*) where
  /-- The ring and the counters. -/
  synth : Synth
  /-- `fms` -/
  fms : Fin 2 → V

/-- The loop of `mix_samples` over the words it takes. -/
def FmSynth.commands (fm : FmSynth V S) (fms : Fin 2 → V) (words : List UInt32) : Fin 2 → V :=
  words.foldl (fun fms word =>
    Function.update fms (splitOf word) (fm.command (fms (splitOf word)) word)) fms

/-- `Synth::mix_samples` -/
def VoicedSynth.mixSamples [Zero S] (fm : FmSynth V S) (s : VoicedSynth V) (frames : ℕ) :
    VoicedSynth V × List S × List S :=
  let (words, synth) := s.synth.mixSamples
  let fms := fm.commands s.fms words
  let zeros := List.replicate frames (0 : S)
  let (first, left, right) := fm.render (fms 0) frames zeros zeros
  let (second, left, right) := fm.render (fms 1) frames left right
  (⟨synth, Function.update (Function.update fms 0 first) 1 second⟩, left, right)

/-- A call of the synth. -/
inductive SynthCall where
  /-- A post of a word by the main thread. -/
  | post (word : UInt32)
  /-- `mix_samples` -/
  | mix (frames : ℕ)
  deriving DecidableEq, Repr

/-- What a call does, and the buffers that it fills. -/
def VoicedSynth.step [Zero S] (fm : FmSynth V S) (s : VoicedSynth V) :
    SynthCall → VoicedSynth V × List (List S × List S)
  | .post word => ({ s with synth := (s.synth.writeSlot word).publish }, [])
  | .mix frames => ((s.mixSamples fm frames).1, [(s.mixSamples fm frames).2])

/-- A split hears the posts of its words, and every call of `mix_samples`. -/
def SynthCall.hears (i : Fin 2) : SynthCall → Bool
  | .post word => splitOf word = i
  | .mix _ => true

/-- The main thread never has more than a ring of words waiting, when so many wait at first. -/
def KeepsUp : ℕ → List SynthCall → Prop
  | _, [] => True
  | waiting, .post _ :: calls => waiting < ringSize ∧ KeepsUp (waiting + 1) calls
  | _, .mix _ :: calls => KeepsUp 0 calls

/-- The number of posts among some calls. -/
def postCount (calls : List SynthCall) : ℕ := calls.countP fun | .post _ => true | .mix _ => false

/-- What rendering a voice adds, which is all that is asked of it: it adds to the buffers it is
given, and what it adds does not depend on them. -/
structure FmSynth.Adds [Add S] (fm : FmSynth V S) (next : V → ℕ → V)
    (sound : V → ℕ → VoiceSound S) : Prop where
  /-- The sound is one of as many frames as it was asked for. -/
  frames_eq : ∀ voice frames, (sound voice frames).frames = frames
  /-- Rendering adds the sound. -/
  render_eq : ∀ voice frames left right, fm.render voice frames left right =
    (next voice frames, List.zipWith (· + ·) left (sound voice frames).left,
      List.zipWith (· + ·) right (sound voice frames).right)

/-! ### What a split does by itself -/

/-- One voice, and the words that wait for it. -/
structure Solo (V : Type*) where
  /-- The voice. -/
  voice : V
  /-- The words that wait. -/
  waiting : List UInt32

/-- A call, as a split hears it. -/
def soloStep (fm : FmSynth V S) (next : V → ℕ → V) (sound : V → ℕ → VoiceSound S) (i : Fin 2)
    (solo : Solo V) : SynthCall → Solo V × List (VoiceSound S)
  | .post word =>
    if splitOf word = i then ({ solo with waiting := solo.waiting ++ [word] }, []) else (solo, [])
  | .mix frames =>
    let voice := solo.waiting.foldl fm.command solo.voice
    (⟨next voice frames, []⟩, [sound voice frames])

/-- The buffers of two voices that sound together. -/
def mixdown [Zero S] [Add S] (first second : VoiceSound S) : List S × List S :=
  let zeros := List.replicate first.frames (0 : S)
  (List.zipWith (· + ·) (List.zipWith (· + ·) zeros first.left) second.left,
    List.zipWith (· + ·) (List.zipWith (· + ·) zeros first.right) second.right)

/-- A split does not hear the posts of the other one. -/
theorem exec_soloStep_filter (fm : FmSynth V S) (next : V → ℕ → V) (sound : V → ℕ → VoiceSound S)
    (i : Fin 2) (solo : Solo V) (calls : List SynthCall) :
    exec (soloStep fm next sound i) solo calls =
      exec (soloStep fm next sound i) solo (calls.filter (SynthCall.hears i)) := by
  refine @exec_filter _ _ _ _ _ (fun _ => True) (fun _ _ _ => trivial) ?_ _ trivial calls
  intro solo call _ hdeaf
  cases call with
  | mix frames => cases hdeaf
  | post word => exact if_neg (of_decide_eq_false hdeaf)

/-- The commands of a list of words reach each voice as the words of its split do. -/
theorem FmSynth.commands_apply (fm : FmSynth V S) (fms : Fin 2 → V) (words : List UInt32)
    (i : Fin 2) :
    fm.commands fms words i =
      (words.filter fun word => splitOf word = i).foldl fm.command (fms i) := by
  induction words generalizing fms with
  | nil => rfl
  | cons word words ih =>
    have hrest := ih (Function.update fms (splitOf word) (fm.command (fms (splitOf word)) word))
    rw [FmSynth.commands, List.foldl_cons, ← FmSynth.commands, hrest]
    by_cases hsplit : splitOf word = i
    · subst hsplit
      rw [List.filter_cons_of_pos (by simp), List.foldl_cons, Function.update_self]
    · rw [List.filter_cons_of_neg (by simpa using hsplit),
        Function.update_of_ne (Ne.symm hsplit)]

/-! ### What `mix_samples` takes -/

/-- The ring between two calls, when some words wait and so many have been posted. -/
def Feeds (waiting : List UInt32) (posted : ℕ) (synth : Synth) : Prop :=
  ∃ s : RingState, s.synth = synth ∧ GuardedInv s ∧ s.posting = false ∧ s.mixing = none ∧
    s.queue = waiting ∧ s.posted.length = posted

/-- After `on_backend_start` no word waits. -/
theorem feeds_start (synth : Synth) : Feeds [] 0 synth.onBackendStart :=
  ⟨.start synth, rfl, guardedInv_start synth, rfl, rfl, rfl, rfl⟩

/-- A post that finds room adds its word. -/
theorem Feeds.post {waiting : List UInt32} {posted : ℕ} {synth : Synth}
    (h : Feeds waiting posted synth) (hroom : waiting.length < ringSize) (word : UInt32) :
    Feeds (waiting ++ [word]) (posted + 1) (synth.writeSlot word).publish := by
  obtain ⟨s, rfl, hinv, hposting, hmixing, rfl, rfl⟩ := h
  obtain ⟨t, hwrite, hpublish⟩ := post_steps hposting word
  have hall := hinv.published_of_idle hposting
  have hfree : RoomToWrite s (.write word) := by
    have hlength : s.queue.length = s.posted.length - s.taken.length := by
      rw [RingState.queue, List.length_drop, hall]
    have htaken := hinv.taken_le
    rw [hall] at htaken
    rw [RoomToWrite, hinv.writeCount_eq, hinv.readCount_eq, UInt32.lt_iff_toNat_lt,
      UInt32.toNat_sub]
    simp only [UInt32.toNat_ofNat', UInt32.reduceToNat, ringSize] at hroom ⊢
    omega
  refine ⟨s.post word, rfl, (hinv.step hwrite hfree).step hpublish trivial, hposting, hmixing, ?_,
    ?_⟩
  · have htaken := hinv.taken_le
    rw [RingState.queue, RingState.post, RingState.queue, hall]
    rw [hall] at htaken
    exact List.drop_append_of_le_length htaken
  · exact List.length_append

/-- `mix_samples` takes the words that wait, all of them and in order, as long as no counter has
wrapped. -/
theorem Feeds.mix {waiting : List UInt32} {posted : ℕ} {synth : Synth}
    (h : Feeds waiting posted synth) (hfew : posted < 2 ^ 32) :
    synth.mixSamples.1 = waiting ∧ Feeds [] posted synth.mixSamples.2 := by
  obtain ⟨s, rfl, hinv, hposting, hmixing, rfl, rfl⟩ := h
  let d : Drain := ⟨s.synth.atomicWriteCount, s.published⟩
  let loaded : RingState := { s with mixing := some d }
  obtain ⟨htakes, hdone⟩ := @drain_takes loaded d rfl
  have hloaded : GuardedInv loaded := hinv.step (.load s hmixing) trivial
  have hafter := hloaded.run
    (ReflTransGen.mono (fun _ _ hstep => ⟨.take, hstep, trivial⟩) _ _ htakes)
  -- the loop ends only when all that was published has been taken
  have htaken : s.taken ++ s.synth.mixSamples.1 = s.published :=
    List.IsPrefix.eq_of_length hafter.taken_prefix
      (le_antisymm hafter.taken_prefix.length_le (hafter.loaded_taken hfew rfl hdone).length_le)
  have hqueue : s.synth.mixSamples.1 = s.queue := by
    rw [RingState.queue, ← htaken, List.drop_left]
  refine ⟨hqueue, _, rfl, hafter.step (.finish _ d rfl hdone) trivial, hposting, rfl, ?_, rfl⟩
  exact List.drop_eq_nil_of_le (by rw [← htaken]; rfl)

/-! ### Both splits together -/

/-- A post is one post more. -/
theorem postCount_post (word : UInt32) (calls : List SynthCall) :
    postCount (.post word :: calls) = postCount calls + 1 := List.countP_cons_of_pos rfl

/-- A call of `mix_samples` is none. -/
theorem postCount_mix (frames : ℕ) (calls : List SynthCall) :
    postCount (.mix frames :: calls) = postCount calls := List.countP_cons_of_neg (by simp)

section Together

variable [Zero S] [Add S] {fm : FmSynth V S} {next : V → ℕ → V} {sound : V → ℕ → VoiceSound S}

/-- A call of `mix_samples` lets each voice go on as it would by itself, and mixes their sounds. -/
theorem FmSynth.Adds.mixSamples (hadds : fm.Adds next sound) {waiting : List UInt32}
    {s : VoicedSynth V} (hwords : s.synth.mixSamples.1 = waiting) (frames : ℕ) :
    s.mixSamples fm frames =
      (⟨s.synth.mixSamples.2, fun i => next (fm.commands s.fms waiting i) frames⟩,
        mixdown (sound (fm.commands s.fms waiting 0) frames)
          (sound (fm.commands s.fms waiting 1) frames)) := by
  have hvoices : ∀ first second : V,
      Function.update (Function.update (fm.commands s.fms waiting) 0 first) 1 second =
        fun i : Fin 2 => if i = 0 then first else second := by
    intro first second
    refine funext (Fin.forall_fin_two.mpr ⟨?_, ?_⟩)
    · simp
    · simp
  unfold VoicedSynth.mixSamples mixdown
  simp only [hwords, hadds.render_eq, hadds.frames_eq, hvoices]
  congr 2
  refine funext (Fin.forall_fin_two.mpr ⟨?_, ?_⟩)
  · simp
  · simp

/-- In every run in which the main thread never overtakes the ring, each voice goes on as it would
by itself, and the buffers hold both sounds. -/
theorem FmSynth.Adds.run (hadds : fm.Adds next sound) {calls : List SynthCall}
    {waiting : List UInt32} {posted : ℕ} {s : VoicedSynth V} (hfeeds : Feeds waiting posted s.synth)
    (hkeeps : KeepsUp waiting.length calls) (hfew : posted + postCount calls < 2 ^ 32) :
    let out := exec (VoicedSynth.step fm) s calls
    let solo (i : Fin 2) := exec (soloStep fm next sound i)
      ⟨s.fms i, waiting.filter fun word => splitOf word = i⟩ calls
    (∀ i, out.1.fms i = (solo i).1.voice) ∧
      out.2 = List.zipWith mixdown (solo 0).2 (solo 1).2 := by
  induction calls generalizing waiting posted s with
  | nil => exact ⟨fun _ => rfl, rfl⟩
  | cons call calls ih =>
    cases call with
    | post word =>
      rw [postCount_post] at hfew
      have hrest := @ih _ _ { s with synth := (s.synth.writeSlot word).publish }
        (hfeeds.post hkeeps.1 word) (by simpa using hkeeps.2) (by omega)
      have hsolo : ∀ i, soloStep fm next sound i
          ⟨s.fms i, waiting.filter fun word => splitOf word = i⟩ (.post word) =
            (⟨s.fms i, (waiting ++ [word]).filter fun word => splitOf word = i⟩, []) := by
        intro i
        rw [soloStep, List.filter_append]
        split_ifs with hsplit
        · rw [List.filter_cons_of_pos (by simpa using hsplit), List.filter_nil]
        · rw [List.filter_cons_of_neg (by simpa using hsplit), List.filter_nil, List.append_nil]
      simp only [exec_cons, hsolo, List.nil_append]
      exact hrest
    | mix frames =>
      obtain ⟨hwords, hempty⟩ := hfeeds.mix (by omega)
      rw [postCount_mix] at hfew
      have hstep := hadds.mixSamples hwords frames
      have hrest := @ih [] posted (s.mixSamples fm frames).1 (by rw [hstep]; exact hempty)
        hkeeps hfew
      simp only [exec_cons, VoicedSynth.step, soloStep, ← FmSynth.commands_apply]
      rw [hstep] at hrest ⊢
      refine ⟨hrest.1, ?_⟩
      rw [List.singleton_append, hrest.2]
      rfl

/-- Fewer posts keep up as well. -/
theorem KeepsUp.filter {waiting fewer : ℕ} {calls : List SynthCall} (h : KeepsUp waiting calls)
    (hle : fewer ≤ waiting) (i : Fin 2) : KeepsUp fewer (calls.filter (SynthCall.hears i)) := by
  induction calls generalizing waiting fewer with
  | nil => trivial
  | cons call calls ih =>
    cases call with
    | post word =>
      by_cases hhears : SynthCall.hears i (.post word)
      · rw [List.filter_cons_of_pos hhears]
        exact ⟨hle.trans_lt h.1, ih h.2 (Nat.succ_le_succ hle)⟩
      · rw [List.filter_cons_of_neg hhears]
        exact ih h.2 (hle.trans (Nat.le_succ _))
    | mix frames =>
      rw [List.filter_cons_of_pos rfl]
      exact ih h le_rfl

/-- **Each split plays by itself.** After `on_backend_start`, in every run in which the main thread
never overtakes the ring and no counter wraps, each voice is as it would be if the other player had
posted nothing; and every buffer holds the sum of what the two would sound like by themselves. -/
theorem splits_play_independently (hadds : fm.Adds next sound) (synth : Synth) (fms : Fin 2 → V)
    {calls : List SynthCall} (hkeeps : KeepsUp 0 calls) (hfew : postCount calls < 2 ^ 32) :
    let start : VoicedSynth V := ⟨synth.onBackendStart, fms⟩
    let heard (i : Fin 2) := calls.filter (SynthCall.hears i)
    let solo (i : Fin 2) := exec (soloStep fm next sound i) ⟨fms i, []⟩ (heard i)
    (∀ i, (exec (VoicedSynth.step fm) start calls).1.fms i =
        (exec (VoicedSynth.step fm) start (heard i)).1.fms i) ∧
      (exec (VoicedSynth.step fm) start calls).2 = List.zipWith mixdown (solo 0).2 (solo 1).2 := by
  intro start heard solo
  have hall := @FmSynth.Adds.run _ _ _ _ _ _ _ hadds calls [] 0 start (feeds_start synth) hkeeps
    (by omega)
  refine ⟨fun i => ?_, ?_⟩
  · have hfewer : postCount (heard i) ≤ postCount calls :=
      List.Sublist.countP_le List.filter_sublist
    have halone := @FmSynth.Adds.run _ _ _ _ _ _ _ hadds (heard i) [] 0 start
      (feeds_start synth) (hkeeps.filter le_rfl i) (by omega)
    have hfilter := exec_soloStep_filter fm next sound i ⟨fms i, []⟩ calls
    exact ((hall.1 i).trans (congrArg (·.1.voice) hfilter)).trans (halone.1 i).symm
  · have hfilter (i : Fin 2) := exec_soloStep_filter fm next sound i ⟨fms i, []⟩ calls
    exact hall.2.trans (congrArg₂ (List.zipWith mixdown ·.2 ·.2) (hfilter 0) (hfilter 1))

end Together

/-- Voices that are their notes, each of which sounds as a one. -/
def countingSynth : FmSynth (List UInt8) ℤ where
  noteOn voice note := note :: voice
  noteOff voice note := voice.erase note
  render voice frames left right :=
    let sound := List.replicate frames (voice.length : ℤ)
    (voice, List.zipWith (· + ·) left sound, List.zipWith (· + ·) right sound)

/-- What such a voice adds. -/
def countingSound (voice : List UInt8) (frames : ℕ) : VoiceSound ℤ :=
  ⟨frames, List.replicate frames voice.length, List.replicate frames voice.length⟩

/-- Such voices add. -/
theorem countingSynth_adds : countingSynth.Adds (fun voice _ => voice) countingSound where
  frames_eq _ _ := rfl
  render_eq _ _ _ _ := rfl

/-- Two players press a key each, and then one of them another. -/
def threePresses : List SynthCall :=
  [.post (noteOnWord 0 60), .post (noteOnWord 1 72), .mix 1, .post (noteOnWord 1 76), .mix 2]

/-- Two notes sound, and then three. -/
theorem splits_play_independently_three :
    (exec (VoicedSynth.step countingSynth)
      ⟨(⟨Vector.replicate ringSize 0, 0, 0, 0⟩ : Synth).onBackendStart, fun _ => []⟩
      threePresses).2 = [([2], [2]), ([3, 3], [3, 3])] := by
  have hkeeps : KeepsUp 0 threePresses := by simp [KeepsUp, threePresses, ringSize]
  exact (splits_play_independently countingSynth_adds _ _ hkeeps (by decide)).2

end Sussybard

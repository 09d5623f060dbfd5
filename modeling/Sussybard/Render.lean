import Sussybard.Dsp
import Mathlib.Data.Vector.Basic
import Mathlib.Algebra.BigOperators.Group.List.Basic

/-!
# Rendering a request for audio

Both backends render a request in chunks of at most 256 frames: the mixer fills
the channel buffers, and the chunk is interleaved behind what is already in the
output. The mixer is any function with a state; the chunks it delivers are kept
with the result, and they are those of its calls one after the other.
-/

namespace Sussybard

open Buffer

/-- `MAX_NUM_SAMPLES` of the Pulse backend and `MAX_NUM_FRAMES` of the WASAPI backend. -/
def maxNumSamples : ℕ := 256

/-- `mix_channels`, for two channels. -/
structure MixBuffers (α : Type*) where
  /-- `mix_channels[0]` -/
  left : Vector α maxNumSamples
  /-- `mix_channels[1]` -/
  right : Vector α maxNumSamples

/-- A callback in place of `mix_samples`: it may keep a state, and it may do anything to the
buffers. -/
abbrev Mixer (σ α : Type*) := σ → MixBuffers α → ℕ → σ × MixBuffers α

/-- What one call of the mixer delivers. -/
structure Chunk (α : Type*) where
  /-- The number of frames asked for. -/
  frames : ℕ
  /-- The frames of the left channel. -/
  left : List α
  /-- The frames of the right channel. -/
  right : List α

/-- The chunk in the buffers after a call of the mixer. -/
def MixBuffers.chunk {α : Type*} (buffers : MixBuffers α) (frames : ℕ) : Chunk α where
  frames := frames
  left := buffers.left.toList.take frames
  right := buffers.right.toList.take frames

/-- How rendering leaves the mixer and the output. -/
structure Rendering (σ α : Type*) where
  /-- The mixer's state. -/
  state : σ
  /-- The channel buffers. -/
  buffers : MixBuffers α
  /-- The output, with the pointer behind what was written. -/
  out : Cursor α
  /-- The mixer's calls, in order. -/
  chunks : List (Chunk α)

section

variable {σ α : Type*}

/-- The left channel of a sequence of chunks. -/
def leftOf (chunks : List (Chunk α)) : List α := chunks.flatMap Chunk.left

/-- The right channel of a sequence of chunks. -/
def rightOf (chunks : List (Chunk α)) : List α := chunks.flatMap Chunk.right

/-- The rendering loop of both backends, for how a chunk is written. -/
def renderLoop (writeChunk : MixBuffers α → ℕ → Cursor α → Option (Cursor α))
    (mix : Mixer σ α) (outFrames : ℕ) (state : σ) (buffers : MixBuffers α) (out : Cursor α) :
    Option (Rendering σ α) :=
  if outFrames = 0 then some ⟨state, buffers, out, []⟩
  else
    let toWrite := min outFrames maxNumSamples
    let mixed := mix state buffers toWrite
    (writeChunk mixed.2 toWrite out).bind fun out =>
      (renderLoop writeChunk mix (outFrames - toWrite) mixed.1 mixed.2 out).map fun rendering =>
        { rendering with chunks := mixed.2.chunk toWrite :: rendering.chunks }
termination_by outFrames
decreasing_by
  simp only [maxNumSamples]
  omega

/-- Whether `interleave_stereo_f32` is compiled with SSE. -/
inductive SimdBuild where
  | sse
  | scalar

/-- `DSP::interleave_stereo_f32` -/
def interleaveStereoF32 : SimdBuild → ℕ → List α → List α → Cursor α → Option (Cursor α)
  | .sse => interleaveStereoF32Sse
  | .scalar => interleaveStereoF32Scalar

/-- A chunk written by `interleave_stereo_f32`, which does not move its caller's pointer. -/
def writeStereo (build : SimdBuild) (buffers : MixBuffers α) (toWrite : ℕ) (out : Cursor α) :
    Option (Cursor α) :=
  (interleaveStereoF32 build toWrite buffers.left.toList buffers.right.toList out).map
    fun written => (⟨written.buffer, out.pos⟩ : Cursor α).advance (toWrite * 2)

/-- One frame of the loop over channels. -/
def writeFrame (channels : List (List α)) (f : ℕ) (out : Cursor α) : Option (Cursor α) :=
  channels.foldlM (fun out channel => channel[f]?.bind fun x => out.put [x]) out

/-- The loop over frames around it, from frame `f` on. -/
def writeFrames (channels : List (List α)) (f : ℕ) : ℕ → Cursor α → Option (Cursor α)
  | 0, out => some out
  | n + 1, out => (writeFrame channels f out).bind fun out => writeFrames channels (f + 1) n out

/-- A chunk written by the loop over channels. -/
def writeChannels (channels : ℕ) (buffers : MixBuffers α) (toWrite : ℕ) (out : Cursor α) :
    Option (Cursor α) :=
  writeFrames ([buffers.left.toList, buffers.right.toList].take channels) 0 toWrite out

/-- `Pulse::to_frames` -/
def toFrames (channels size : ℕ) : ℕ := size / (channels * 4)

/-- What `stream_request_cb` does between `pa_stream_begin_write` and `pa_stream_write` with
the buffer it was granted. -/
def streamRequestCb [Zero α] (build : SimdBuild) (channels : ℕ) (isActive : Bool)
    (mix : Mixer σ α) (state : σ) (buffers : MixBuffers α) (length : ℕ) (outData : List α) :
    Option (Rendering σ α) :=
  let outFrames := toFrames channels length
  if isActive then
    renderLoop (if channels = 2 then writeStereo build else writeChannels channels) mix outFrames
      state buffers (.start outData)
  else
    (storeAll outData 0 (List.replicate (channels * outFrames) 0)).map fun data =>
      ⟨state, buffers, .start data, []⟩

/-- What `WASAPI::thread_runner` does between `GetBuffer` and `ReleaseBuffer`. -/
def threadRunner (build : SimdBuild) (mix : Mixer σ α) (state : σ) (buffers : MixBuffers α)
    (writeAvail : ℕ) (interleaved : List α) : Option (Rendering σ α) :=
  renderLoop (writeStereo build) mix writeAvail state buffers (.start interleaved)

/-- The bytes that `pa_stream_begin_write` grants, as floats. -/
structure PulseGrant (α : Type*) where
  /-- `length`, in bytes. -/
  length : ℕ
  /-- The floats in them. -/
  data : List α
  /-- A float has four bytes. -/
  size_eq : data.length = length / 4

/-- The frames that `GetBuffer` grants. -/
structure WasapiGrant (α : Type*) where
  /-- `write_avail` -/
  writeAvail : ℕ
  /-- The floats in them. -/
  data : List α
  /-- A frame has two channels. -/
  size_eq : data.length = writeAvail * 2

/-- A chunk writer puts the frames of the chunk. -/
def WritesFrames (writeChunk : MixBuffers α → ℕ → Cursor α → Option (Cursor α)) : Prop :=
  ∀ buffers n out, n ≤ maxNumSamples →
    writeChunk buffers n out = out.put (interleave (buffers.chunk n).left (buffers.chunk n).right)

/-- Chunks fill both channels alike. -/
theorem MixBuffers.chunk_lengths (buffers : MixBuffers α) {n : ℕ} (hn : n ≤ maxNumSamples) :
    (buffers.chunk n).left.length = n ∧ (buffers.chunk n).right.length = n := by
  simp only [chunk, List.length_take, Vector.length_toList]
  omega

/-- Both builds of `interleave_stereo_f32` write the frames of a chunk. -/
theorem writeStereo_writesFrames (build : SimdBuild) :
    WritesFrames (writeStereo build : MixBuffers α → ℕ → Cursor α → Option (Cursor α)) := by
  intro buffers n out hn
  obtain ⟨hleft, hright⟩ := buffers.chunk_lengths hn
  have hfits : n ≤ buffers.left.toList.length ∧ n ≤ buffers.right.toList.length := by
    simpa using hn
  obtain ⟨hscalar, hsse⟩ := interleaveStereoF32_eq hfits.1 hfits.2 out
  have hbuild : interleaveStereoF32 build n buffers.left.toList buffers.right.toList out =
      out.put (interleave (buffers.chunk n).left (buffers.chunk n).right) := by
    cases build with
    | sse => exact hsse
    | scalar => exact hscalar
  have hframes : n * 2 = (interleave (buffers.chunk n).left (buffers.chunk n).right).length := by
    rw [interleave_length (hleft.trans hright.symm), hleft, Nat.mul_comm]
  rw [writeStereo, hbuild, hframes]
  exact out.put_advance _

/-- The loop over two channels writes their frames. -/
theorem writeFrames_eq {left right : List α} {f n : ℕ} (hleft : f + n ≤ left.length)
    (hright : f + n ≤ right.length) (out : Cursor α) :
    writeFrames [left, right] f n out =
      out.put (interleave ((left.drop f).take n) ((right.drop f).take n)) := by
  induction n generalizing f out with
  | zero => rfl
  | succ n ih =>
    have hl : left[f]? = some left[f] := List.getElem?_eq_getElem (by omega)
    have hr : right[f]? = some right[f] := List.getElem?_eq_getElem (by omega)
    have hframe : writeFrame [left, right] f out = out.put [left[f], right[f]] := by
      rw [Cursor.put_cons out left[f] [right[f]]]
      simp [writeFrame, hl, hr]
    rw [writeFrames, hframe, List.drop_eq_getElem_cons (by omega : f < left.length),
      List.drop_eq_getElem_cons (by omega : f < right.length), List.take_succ_cons,
      List.take_succ_cons, interleave_cons]
    have hput := out.put_append [left[f], right[f]]
      (interleave ((left.drop (f + 1)).take n) ((right.drop (f + 1)).take n))
    refine Eq.trans ?_ hput.symm
    congr 1
    funext out
    exact ih (by omega) (by omega) out

/-- So does the loop over channels, at two of them. -/
theorem writeChannels_writesFrames :
    WritesFrames (writeChannels 2 : MixBuffers α → ℕ → Cursor α → Option (Cursor α)) := by
  intro buffers n out hn
  exact writeFrames_eq (by simpa using hn) (by simpa using hn) out

/-- The mixer's calls for a request, apart from any output: its state and buffers after them,
and the chunks. -/
def mixChunks (mix : Mixer σ α) (outFrames : ℕ) (state : σ) (buffers : MixBuffers α) :
    σ × MixBuffers α × List (Chunk α) :=
  if outFrames = 0 then (state, buffers, [])
  else
    let toWrite := min outFrames maxNumSamples
    let mixed := mix state buffers toWrite
    let rest := mixChunks mix (outFrames - toWrite) mixed.1 mixed.2
    (rest.1, rest.2.1, mixed.2.chunk toWrite :: rest.2.2)
termination_by outFrames
decreasing_by
  simp only [maxNumSamples]
  omega

/-- A request for no frames needs no call. -/
theorem mixChunks_zero (mix : Mixer σ α) (state : σ) (buffers : MixBuffers α) :
    mixChunks mix 0 state buffers = (state, buffers, []) := by
  rw [mixChunks, if_pos rfl]

/-- The first call for a request, and those after it. -/
theorem mixChunks_of_ne (mix : Mixer σ α) {outFrames : ℕ} (hsome : outFrames ≠ 0) (state : σ)
    (buffers : MixBuffers α) :
    let toWrite := min outFrames maxNumSamples
    let mixed := mix state buffers toWrite
    let rest := mixChunks mix (outFrames - toWrite) mixed.1 mixed.2
    mixChunks mix outFrames state buffers =
      (rest.1, rest.2.1, mixed.2.chunk toWrite :: rest.2.2) := by
  rw [mixChunks, if_neg hsome]

/-- The chunks of a request: each has between 1 and 256 frames in both channels, and together
they have the frames asked for. -/
structure Covers (n : ℕ) (chunks : List (Chunk α)) : Prop where
  sizes : ∀ c ∈ chunks, 1 ≤ c.frames ∧ c.frames ≤ 256
  sum_eq : (chunks.map Chunk.frames).sum = n
  left_length : (leftOf chunks).length = n
  right_length : (rightOf chunks).length = n

/-- The mixer's calls cover every request. -/
theorem covers_mixChunks (mix : Mixer σ α) (outFrames : ℕ) (state : σ) (buffers : MixBuffers α) :
    Covers outFrames (mixChunks mix outFrames state buffers).2.2 := by
  induction outFrames using Nat.strong_induction_on generalizing state buffers with
  | h n ih =>
    by_cases hzero : n = 0
    · rw [hzero, mixChunks_zero]
      exact ⟨by simp, rfl, rfl, rfl⟩
    · rw [mixChunks_of_ne mix hzero]
      have hpos : 1 ≤ min n maxNumSamples ∧ min n maxNumSamples ≤ 256 := by
        simp only [maxNumSamples]
        omega
      have hrest := ih (n - min n maxNumSamples) (by omega)
        (mix state buffers (min n maxNumSamples)).1 (mix state buffers (min n maxNumSamples)).2
      obtain ⟨hleft, hright⟩ := (mix state buffers (min n maxNumSamples)).2.chunk_lengths
        (min_le_right n maxNumSamples)
      refine ⟨?_, ?_, ?_, ?_⟩
      · intro c hc
        rcases List.mem_cons.mp hc with rfl | hc
        · exact hpos
        · exact hrest.sizes c hc
      · simp only [List.map_cons, List.sum_cons, hrest.sum_eq]
        simp only [MixBuffers.chunk]
        omega
      · have hlength := hrest.left_length
        simp only [leftOf, List.flatMap_cons, List.length_append] at hlength ⊢
        omega
      · have hlength := hrest.right_length
        simp only [rightOf, List.flatMap_cons, List.length_append] at hlength ⊢
        omega

/-- However chunks are written, the loop puts the frames of the mixer's chunks. -/
theorem renderLoop_eq {writeChunk : MixBuffers α → ℕ → Cursor α → Option (Cursor α)}
    (hwrite : WritesFrames writeChunk) (mix : Mixer σ α) (outFrames : ℕ) (state : σ)
    (buffers : MixBuffers α) (out : Cursor α) :
    let mixed := mixChunks mix outFrames state buffers
    renderLoop writeChunk mix outFrames state buffers out =
      (out.put (interleave (leftOf mixed.2.2) (rightOf mixed.2.2))).map
        fun out => ⟨mixed.1, mixed.2.1, out, mixed.2.2⟩ := by
  induction outFrames using Nat.strong_induction_on generalizing state buffers out with
  | h n ih =>
    intro mixed
    by_cases hzero : n = 0
    · have hmixed : mixed = (state, buffers, []) := by
        simp only [mixed]
        rw [hzero, mixChunks_zero]
      rw [renderLoop, if_pos hzero, hmixed]
      rfl
    · let toWrite := min n maxNumSamples
      let first := mix state buffers toWrite
      let rest := mixChunks mix (n - toWrite) first.1 first.2
      have hmixed : mixed = (rest.1, rest.2.1, first.2.chunk toWrite :: rest.2.2) :=
        mixChunks_of_ne mix hzero state buffers
      have hchunk := hwrite first.2 toWrite out (min_le_right n maxNumSamples)
      have hlengths := first.2.chunk_lengths (min_le_right n maxNumSamples)
      have hshort : n - toWrite < n := by
        simp only [toWrite, maxNumSamples]
        omega
      have hframes : interleave (leftOf mixed.2.2) (rightOf mixed.2.2) =
          interleave (first.2.chunk toWrite).left (first.2.chunk toWrite).right ++
            interleave (leftOf rest.2.2) (rightOf rest.2.2) := by
        rw [hmixed]
        exact interleave_append (hlengths.1.trans hlengths.2.symm) _ _
      rw [renderLoop, if_neg hzero, hframes, Cursor.put_append, Option.map_bind]
      refine (congrArg (Option.bind · _) hchunk).trans ?_
      congr 1
      funext out
      have hrest := ih _ hshort first.1 first.2 out
      refine (congrArg (Option.map _) hrest).trans ?_
      rw [Option.map_map, hmixed]
      rfl

/-- The chunks that a mixer delivers when it is called again and again, each time with the state
and the buffers that the call before has left. -/
inductive Delivers (mix : Mixer σ α) : σ → MixBuffers α → List (Chunk α) → σ → MixBuffers α → Prop
  | nil (state : σ) (buffers : MixBuffers α) : Delivers mix state buffers [] state buffers
  | cons {state state' : σ} {buffers buffers' : MixBuffers α} {frames : ℕ}
      {chunks : List (Chunk α)}
      (hrest : Delivers mix (mix state buffers frames).1 (mix state buffers frames).2 chunks state'
        buffers') :
      Delivers mix state buffers ((mix state buffers frames).2.chunk frames :: chunks) state'
        buffers'

/-- A request is mixed by calls one after the other. -/
theorem delivers_mixChunks (mix : Mixer σ α) (outFrames : ℕ) (state : σ)
    (buffers : MixBuffers α) :
    Delivers mix state buffers (mixChunks mix outFrames state buffers).2.2
      (mixChunks mix outFrames state buffers).1 (mixChunks mix outFrames state buffers).2.1 := by
  induction outFrames using Nat.strong_induction_on generalizing state buffers with
  | h n ih =>
    by_cases hzero : n = 0
    · rw [hzero, mixChunks_zero]
      exact .nil _ _
    · rw [mixChunks_of_ne mix hzero]
      have hshort : n - min n maxNumSamples < n := by
        simp only [maxNumSamples]
        omega
      exact .cons (ih _ hshort _ _)

/-- A request for `n` frames is rendered into a buffer: the chunks are those of the mixer's calls
and cover the request, the first `2 * n` floats are their frames, left before right, and no other
float has changed. -/
structure RendersAll (mix : Mixer σ α) (state : σ) (buffers : MixBuffers α) (n : ℕ)
    (data : List α) (r : Rendering σ α) : Prop where
  delivers : Delivers mix state buffers r.chunks r.state r.buffers
  covers : Covers n r.chunks
  out_left : ∀ i < n, r.out.buffer[2 * i]? = (leftOf r.chunks)[i]?
  out_right : ∀ i < n, r.out.buffer[2 * i + 1]? = (rightOf r.chunks)[i]?
  beyond : r.out.buffer.drop (2 * n) = data.drop (2 * n)
  length_eq : r.out.buffer.length = data.length

/-- The rendering of a request into a buffer with room for it. -/
def rendered (mix : Mixer σ α) (n : ℕ) (state : σ) (buffers : MixBuffers α) (data : List α) :
    Rendering σ α :=
  let mixed := mixChunks mix n state buffers
  ⟨mixed.1, mixed.2.1,
    ⟨interleave (leftOf mixed.2.2) (rightOf mixed.2.2) ++ data.drop (2 * n), 2 * n⟩, mixed.2.2⟩

/-- However chunks are written, the loop renders the request. -/
theorem renderLoop_start {writeChunk : MixBuffers α → ℕ → Cursor α → Option (Cursor α)}
    (hwrite : WritesFrames writeChunk) (mix : Mixer σ α) {n : ℕ} (state : σ)
    (buffers : MixBuffers α) {data : List α} (hroom : 2 * n ≤ data.length) :
    renderLoop writeChunk mix n state buffers (.start data) =
      some (rendered mix n state buffers data) := by
  have hcovers := covers_mixChunks mix n state buffers
  have hframes := interleave_length (hcovers.left_length.trans hcovers.right_length.symm)
  rw [hcovers.left_length] at hframes
  rw [renderLoop_eq hwrite, Cursor.put_start _ _ (by omega), hframes]
  rfl

/-- The rendering of a request is complete. -/
theorem rendered_rendersAll (mix : Mixer σ α) {n : ℕ} (state : σ) (buffers : MixBuffers α)
    {data : List α} (hroom : 2 * n ≤ data.length) :
    RendersAll mix state buffers n data (rendered mix n state buffers data) := by
  have hcovers := covers_mixChunks mix n state buffers
  have hlengths := hcovers.left_length.trans hcovers.right_length.symm
  have hframes := interleave_length hlengths
  rw [hcovers.left_length] at hframes
  refine ⟨delivers_mixChunks mix n state buffers, hcovers, ?_, ?_, ?_, ?_⟩
  · intro i hi
    simp only [rendered]
    rw [List.getElem?_append_left (by omega)]
    exact (interleave_getElem? hlengths i).1
  · intro i hi
    simp only [rendered]
    rw [List.getElem?_append_left (by omega)]
    exact (interleave_getElem? hlengths i).2
  · exact List.drop_left' hframes
  · simp only [rendered, List.length_append, List.length_drop, hframes]
    omega

/-- Renderings of the same chunks have the same samples. -/
theorem RendersAll.samples_eq {τ : Type*} {mix : Mixer σ α} {mix' : Mixer τ α} {state : σ}
    {state' : τ} {buffers buffers' : MixBuffers α} {n n' : ℕ} {data data' : List α}
    {r : Rendering σ α} {r' : Rendering τ α} (h : RendersAll mix state buffers n data r)
    (h' : RendersAll mix' state' buffers' n' data' r') (hchunks : r.chunks = r'.chunks) :
    n = n' ∧ ∀ i < 2 * n, r.out.buffer[i]? = r'.out.buffer[i]? := by
  have hn : n = n' := by rw [← h.covers.sum_eq, hchunks, h'.covers.sum_eq]
  subst hn
  refine ⟨rfl, fun i hi => ?_⟩
  rcases Nat.even_or_odd' i with ⟨j, rfl | rfl⟩
  · rw [h.out_left j (by omega), h'.out_left j (by omega), hchunks]
  · rw [h.out_right j (by omega), h'.out_right j (by omega), hchunks]

/-- **Rendering is complete, and chunks leave no trace.** For every mixer, the Pulse callback
while active and the WASAPI thread render every grant completely, from the mixer's own calls: both
builds of `interleave_stereo_f32` and, at two channels, the loop over channels come to the same
rendering, and the two backends write the same samples for the same chunks. -/
theorem rendering_complete {τ : Type*} [Zero α] (mix : Mixer σ α) (mix' : Mixer τ α) (state : σ)
    (state' : τ) (buffers buffers' : MixBuffers α) :
    (∀ grant : PulseGrant α,
      let n := toFrames 2 grant.length
      let r := rendered mix n state buffers grant.data
      RendersAll mix state buffers n grant.data r ∧
        (∀ build, streamRequestCb build 2 true mix state buffers grant.length grant.data =
          some r) ∧
        renderLoop (writeChannels 2) mix n state buffers (.start grant.data) = some r) ∧
      (∀ grant : WasapiGrant α,
        let r := rendered mix' grant.writeAvail state' buffers' grant.data
        RendersAll mix' state' buffers' grant.writeAvail grant.data r ∧
          ∀ build, threadRunner build mix' state' buffers' grant.writeAvail grant.data = some r) ∧
      ∀ (n n' : ℕ) (data data' : List α) (r : Rendering σ α) (r' : Rendering τ α),
        RendersAll mix state buffers n data r → RendersAll mix' state' buffers' n' data' r' →
          r.chunks = r'.chunks → n = n' ∧ ∀ i < 2 * n, r.out.buffer[i]? = r'.out.buffer[i]? := by
  refine ⟨fun grant => ?_, fun grant => ?_, fun n n' data data' r r' h h' => h.samples_eq h'⟩
  · have hroom : 2 * toFrames 2 grant.length ≤ grant.data.length := by
      rw [grant.size_eq, toFrames]
      omega
    exact ⟨rendered_rendersAll mix state buffers hroom,
      fun build => renderLoop_start (writeStereo_writesFrames build) mix state buffers hroom,
      renderLoop_start writeChannels_writesFrames mix state buffers hroom⟩
  · have hroom : 2 * grant.writeAvail ≤ grant.data.length := by
      rw [grant.size_eq]
      omega
    exact ⟨rendered_rendersAll mix' state' buffers' hroom,
      fun build => renderLoop_start (writeStereo_writesFrames build) mix' state' buffers' hroom⟩

end

/-- A mixer that counts its frames, and fills a chunk with the number of those before it. -/
def countingMixer : Mixer ℤ ℤ := fun count _ numFrames =>
  (count + numFrames, ⟨.replicate maxNumSamples count, .replicate maxNumSamples (-count)⟩)

/-- What it delivers in a call. -/
theorem countingMixer_chunk (count : ℤ) (buffers : MixBuffers ℤ) {frames : ℕ}
    (hframes : frames ≤ maxNumSamples) :
    (countingMixer count buffers frames).2.chunk frames =
      ⟨frames, List.replicate frames count, List.replicate frames (-count)⟩ := by
  simp [countingMixer, MixBuffers.chunk, List.take_replicate, hframes]

/-- Its calls for 300 frames. -/
theorem mixChunks_countingMixer (buffers : MixBuffers ℤ) :
    (mixChunks countingMixer 300 0 buffers).2.2 =
      [⟨256, List.replicate 256 0, List.replicate 256 0⟩,
        ⟨44, List.replicate 44 256, List.replicate 44 (-256)⟩] := by
  have hfull : min 300 maxNumSamples = 256 := by decide
  have hrest : min 44 maxNumSamples = 44 := by decide
  have hfirst := countingMixer_chunk 0 buffers (by decide : 256 ≤ maxNumSamples)
  have hsecond := countingMixer_chunk 256 (countingMixer 0 buffers 256).2
    (by decide : 44 ≤ maxNumSamples)
  rw [mixChunks_of_ne _ (by decide : 300 ≠ 0), hfull, hfirst]
  refine congrArg₂ _ rfl ?_
  have hnext := mixChunks_of_ne countingMixer (by decide : 44 ≠ 0) 256
    (countingMixer 0 buffers 256).2
  simp only [hrest, hsecond, Nat.sub_self, mixChunks_zero] at hnext
  exact congrArg (fun mixed => mixed.2.2) hnext

/-- A grant of 2407 bytes is rendered in two calls: the second chunk follows the first, and the
float behind the last frame keeps its value. -/
theorem rendering_complete_two_calls :
    (streamRequestCb .sse 2 true countingMixer 0
        ⟨.replicate maxNumSamples 0, .replicate maxNumSamples 0⟩ 2407 (List.replicate 601 7)).map
        (fun r => (r.chunks.map Chunk.frames, r.out.buffer[512]?, r.out.buffer[513]?,
          r.out.buffer[600]?)) =
      some ([256, 44], some 256, some (-256), some 7) := by
  let silence : MixBuffers ℤ := ⟨.replicate maxNumSamples 0, .replicate maxNumSamples 0⟩
  obtain ⟨hrenders, hbuilds, -⟩ := (rendering_complete countingMixer countingMixer 0 0 silence
    silence).1 ⟨2407, List.replicate 601 7, List.length_replicate⟩
  have hframes : toFrames 2 2407 = 300 := by decide
  simp only [hframes] at hrenders hbuilds
  have hchunks : (rendered countingMixer 300 0 silence (List.replicate 601 7)).chunks =
      [⟨256, List.replicate 256 0, List.replicate 256 0⟩,
        ⟨44, List.replicate 44 256, List.replicate 44 (-256)⟩] :=
    mixChunks_countingMixer silence
  have hsecond : ∀ first second : ℤ,
      (List.replicate 256 first ++ (List.replicate 44 second ++ []))[256]? = some second := by
    intro first second
    rw [List.getElem?_append_right List.length_replicate.le, List.length_replicate]
    rfl
  have hleft := hrenders.out_left 256 (by decide)
  have hright := hrenders.out_right 256 (by decide)
  have hlast := congrArg List.head? hrenders.beyond
  rw [hchunks] at hleft hright
  rw [List.head?_drop, List.head?_drop] at hlast
  refine (congrArg (Option.map _) (hbuilds .sse)).trans ?_
  rw [Option.map_some, hchunks]
  refine congrArg some (Prod.ext rfl (Prod.ext ?_ (Prod.ext ?_ ?_)))
  · exact hleft.trans (hsecond 0 256)
  · exact hright.trans (hsecond 0 (-256))
  · exact hlast.trans (List.getElem?_replicate_of_lt (by decide))

end Sussybard

import Mathlib.Data.Vector.Basic

/-!
# The synth's command ring

`Synth` receives notes from the main thread through a ring of 32-bit words and
applies them in the audio callback. The producer owns `write_count`, the
consumer `read_count`; `atomic_write_count` carries the producer's progress to
the consumer. The FM voices themselves lie outside the model: what reaches them
is the list of words that `mix_samples` takes from the ring.
-/

namespace Sussybard

/-- `RingSize`. -/
def ringSize : ℕ := 4096

/-- The ring has slots. -/
theorem ringSize_pos : 0 < ringSize := by decide

/-- `NumSplits`. -/
def numSplits : UInt32 := 2

/-- A slot number as the source computes it, `count % RingSize`. -/
def ringIndex (count : UInt32) : ℕ := (count % 4096).toNat

/-- Slot numbers are in bounds. -/
theorem ringIndex_lt (count : UInt32) : ringIndex count < ringSize := by
  have := Nat.mod_lt count.toNat (show 0 < 4096 by decide)
  simpa [ringIndex, ringSize] using this

/-- The ring and the counters of `Synth`. -/
structure Synth where
  /-- `ring`, of the size `on_backend_start` gives it. -/
  ring : Vector UInt32 ringSize
  /-- `atomic_write_count` -/
  atomicWriteCount : UInt32
  /-- `read_count` -/
  readCount : UInt32
  /-- `write_count` -/
  writeCount : UInt32

/-- `Synth::on_backend_start`. The slots keep whatever they held. -/
def Synth.onBackendStart (synth : Synth) : Synth :=
  { synth with writeCount := 0, readCount := 0, atomicWriteCount := 0 }

/-- The word that `post_note_on` writes. -/
def noteOnWord (channel note : Int32) : UInt32 :=
  note.toUInt32 ||| (0x80000000 : UInt32) ||| (channel <<< 16).toUInt32

/-- The word that `post_note_off` writes. -/
def noteOffWord (channel note : Int32) : UInt32 := (note ||| (channel <<< 16)).toUInt32

/-- The first statement of a post: `ring[(write_count++) % RingSize] = word`. -/
def Synth.writeSlot (synth : Synth) (word : UInt32) : Synth :=
  { synth with
    ring := synth.ring.set (ringIndex synth.writeCount) word (ringIndex_lt _)
    writeCount := synth.writeCount + 1 }

/-- The second statement of a post: `atomic_write_count.store(write_count)`. -/
def Synth.publish (synth : Synth) : Synth :=
  { synth with atomicWriteCount := synth.writeCount }

/-- `Synth::post_note_on` -/
def Synth.postNoteOn (synth : Synth) (channel note : Int32) : Synth :=
  (synth.writeSlot (noteOnWord channel note)).publish

/-- `Synth::post_note_off` -/
def Synth.postNoteOff (synth : Synth) (channel note : Int32) : Synth :=
  (synth.writeSlot (noteOffWord channel note)).publish

/-- The word under the read position. -/
def Synth.current (synth : Synth) : UInt32 :=
  synth.ring.get ⟨ringIndex synth.readCount, ringIndex_lt _⟩

/-- The `read_count++` that ends each round of the loop of `mix_samples`. -/
def Synth.advance (synth : Synth) : Synth := { synth with readCount := synth.readCount + 1 }

/-- Below its target the read position moves closer to it. -/
theorem Synth.advance_closer {synth : Synth} {target : UInt32} (h : synth.readCount < target) :
    target.toNat - synth.advance.readCount.toNat < target.toNat - synth.readCount.toNat := by
  have hlt : synth.readCount.toNat < target.toNat := UInt32.lt_iff_toNat_lt.mp h
  have htarget := target.toNat_lt
  have hsucc : synth.advance.readCount.toNat = synth.readCount.toNat + 1 := by
    simp only [advance, UInt32.toNat_add, UInt32.toNat_one]
    omega
  omega

/-- The loop of `mix_samples` against a fixed target: the words taken, and the synth after. -/
def Synth.drain (synth : Synth) (target : UInt32) : List UInt32 × Synth :=
  if synth.readCount < target then
    let (words, synth') := synth.advance.drain target
    (synth.current :: words, synth')
  else ([], synth)
termination_by target.toNat - synth.readCount.toNat
decreasing_by exact Synth.advance_closer ‹_›

/-- `Synth::mix_samples`, up to the rendering: the words it applies, in order. -/
def Synth.mixSamples (synth : Synth) : List UInt32 × Synth :=
  synth.drain synth.atomicWriteCount

/-- A command as a voice receives it, or as the main thread meant it. -/
structure SynthCommand where
  /-- Note on rather than note off. -/
  on : Bool
  /-- The split the command goes to. -/
  channel : ℤ
  /-- The MIDI note number. -/
  note : ℤ
  deriving DecidableEq, Repr

/-- How `mix_samples` reads a word: `fms[(note >> 16) & (NumSplits - 1)]` is switched on
when the top bit is set and off otherwise, for the note `uint8_t(note)`. -/
def SynthCommand.ofWord (word : UInt32) : SynthCommand where
  on := word &&& 0x80000000 != 0
  channel := ((word >>> 16) &&& (numSplits - 1)).toNat
  note := word.toUInt8.toNat

end Sussybard

import Sussybard.Tracker

/-!
# Note events as datagrams

A note event travels as one byte, the note in the low seven bits and the press
in the top bit. `UDPSink::send` writes the byte, and
`MIDISourceUDP::wait_next_note_event` reads the first byte of the next datagram
that is not empty.
-/

namespace Sussybard

/-- The byte that `UDPSink::send` hands to `sendto`. -/
def udpMessage (note : Int32) (pressed : Bool) : UInt8 :=
  note.toUInt32.toUInt8 ||| (if pressed then 0x80 else 0)

/-- `UDPSink::send`, when `sendto` returns `ret`. -/
def UDPSink.send (note : Int32) (pressed : Bool) (ret : Int32) : SendCall where
  note := note
  pressed := pressed
  msg := udpMessage note pressed
  sent := decide (0 < ret)

/-- The event that `wait_next_note_event` reads from the first byte of a datagram. -/
def noteEventOfByte (byte : UInt8) : NoteEvent where
  pressed := byte &&& 0x80 != 0
  note := (byte &&& 0x7f).toUInt32.toInt32

/-- What a call of `recvfrom` returns: an error, or a datagram of any length. -/
inductive Received where
  | failed
  | datagram (bytes : List UInt8)
  deriving DecidableEq, Repr

/-- What a call of `wait_next_note_event` comes to on the datagrams at hand. -/
inductive WaitResult where
  /-- It waits for more. -/
  | blocked
  /-- It returns false. -/
  | failed (rest : List Received)
  /-- It returns true with an event. -/
  | event (event : NoteEvent) (rest : List Received)
  deriving DecidableEq, Repr

/-- `MIDISourceUDP::wait_next_note_event`. Empty datagrams are skipped. -/
def MIDISourceUDP.waitNextNoteEvent : List Received → WaitResult
  | [] => .blocked
  | .failed :: rest => .failed rest
  | .datagram [] :: rest => waitNextNoteEvent rest
  | .datagram (byte :: _) :: rest => .event (noteEventOfByte byte) rest

/-- A word read as a signed number is its value modulo `2 ^ 32`. -/
theorem toInt_toInt32 (word : UInt32) : word.toInt32.toInt = (word.toNat : ℤ).bmod (2 ^ 32) :=
  BitVec.toInt_eq_toNat_bmod word.toBitVec

/-- A decoded note is the low seven bits of its byte. -/
theorem noteEventOfByte_note (byte : UInt8) :
    (noteEventOfByte byte).note.toInt = byte.toNat % 128 := by
  have hmask : (byte &&& 0x7f).toNat = byte.toNat % 128 := by
    rw [UInt8.toNat_and]
    exact Nat.and_two_pow_sub_one_eq_mod byte.toNat 7
  have hlt : byte.toNat % 128 < 128 := Nat.mod_lt _ (by decide)
  unfold noteEventOfByte
  rw [toInt_toInt32, UInt8.toNat_toUInt32, hmask, Int.bmod_eq_of_le (by omega) (by omega)]
  simp

/-- A note that is not negative is a natural number. -/
theorem exists_ofNat_of_nonneg {note : Int32} (hlow : 0 ≤ note) :
    ∃ n : ℕ, note.toInt = n ∧ note = Int32.ofNat n := by
  have hlow' : 0 ≤ note.toInt := by simpa [Int32.le_iff_toInt_le] using hlow
  refine ⟨note.toInt.toNat, by omega, ?_⟩
  rw [Int32.toNat_toInt, Int32.ofNat_toNatClampNeg note hlow]

/-- The low byte of a note that is not negative is the note modulo 256. -/
theorem toNat_lowByte {note : Int32} (hlow : 0 ≤ note) :
    (note.toUInt32.toUInt8.toNat : ℤ) = note.toInt % 256 := by
  obtain ⟨n, hn, rfl⟩ := exists_ofNat_of_nonneg hlow
  rw [hn]
  simp

/-- All notes of seven bits survive the trip, with either value of `pressed`. -/
private theorem noteEventOfByte_udpMessage_ofNat :
    ∀ n < 128, ∀ pressed : Bool,
      noteEventOfByte (udpMessage (Int32.ofNat n) pressed) = ⟨Int32.ofNat n, pressed⟩ := by
  decide

/-- A message is read back as the event it was made from exactly when seven bits hold the note. -/
theorem noteEventOfByte_udpMessage_iff (note : Int32) (pressed : Bool) :
    noteEventOfByte (udpMessage note pressed) = ⟨note, pressed⟩ ↔ 0 ≤ note ∧ note ≤ 127 := by
  constructor
  · intro h
    have hnote := noteEventOfByte_note (udpMessage note pressed)
    have hlt : (udpMessage note pressed).toNat % 128 < 128 := Nat.mod_lt _ (by decide)
    rw [h] at hnote
    simp only at hnote
    rw [Int32.le_iff_toInt_le, Int32.le_iff_toInt_le, hnote]
    simp only [Int32.reduceToInt]
    omega
  · rintro ⟨hlow, hhigh⟩
    simp only [Int32.le_iff_toInt_le, Int32.reduceToInt] at hhigh
    obtain ⟨n, hn, rfl⟩ := exists_ofNat_of_nonneg hlow
    exact noteEventOfByte_udpMessage_ofNat n (by omega) pressed

end Sussybard

import Sussybard.General.Buffer
import Sussybard.General.Rounding
import Mathlib.Data.Rat.Floor

/-!
# Interleaving two channels

`interleave_stereo_f32` and `interleave_stereo_f32_i16` merge a left and a right
channel into frames. Each has a vector version, which takes four frames at a
time and the rest one by one, and a scalar version. A pointer to samples is the
list of the samples from there on, so that reading past the end is an error.
-/

namespace Sussybard

open Buffer Rounding

/-- The frames of two channels, one after the other. -/
def interleave {α : Type*} (left right : List α) : List α :=
  (left.zip right).flatMap fun frame => [frame.1, frame.2]

/-- Four samples in a vector register. -/
structure Vec4 (α : Type*) where
  /-- The lane of the lowest address. -/
  x0 : α
  /-- The second lane. -/
  x1 : α
  /-- The third lane. -/
  x2 : α
  /-- The fourth lane. -/
  x3 : α

section

variable {α β : Type*}

/-- The lanes in memory order. -/
def Vec4.lanes (v : Vec4 α) : List α := [v.x0, v.x1, v.x2, v.x3]

/-- The same in every lane. -/
def Vec4.map (f : α → β) (v : Vec4 α) : Vec4 β := ⟨f v.x0, f v.x1, f v.x2, f v.x3⟩

/-- `_mm_loadu_ps` or `vld1q_f32`, with the pointer moved by four. -/
def Vec4.load : List α → Option (Vec4 α × List α)
  | x0 :: x1 :: x2 :: x3 :: rest => some (⟨x0, x1, x2, x3⟩, rest)
  | _ => none

/-- `_mm_unpacklo_ps` -/
def Vec4.unpacklo (l r : Vec4 α) : Vec4 α := ⟨l.x0, r.x0, l.x1, r.x1⟩

/-- `_mm_unpackhi_ps` -/
def Vec4.unpackhi (l r : Vec4 α) : Vec4 α := ⟨l.x2, r.x2, l.x3, r.x3⟩

/-- `count & ~3` -/
def roundedCount (count : ℕ) : ℕ := count - count % 4

/-- The loop that both `interleave` functions run frame by frame, for what it makes of a
sample. -/
def interleaveScalarLoop (convert : α → β) :
    ℕ → List α → List α → Cursor β → Option (Cursor β)
  | 0, _, _, target => some target
  | count + 1, l :: left, r :: right, target =>
    (target.put [convert l]).bind fun target =>
      (target.put [convert r]).bind fun target =>
        interleaveScalarLoop convert count left right target
  | _ + 1, _, _, _ => none

/-- The loop over blocks of four frames, for what it stores of a block: the pointers after. -/
def interleaveBlockLoop (storeBlock : Vec4 α → Vec4 α → Cursor β → Option (Cursor β)) :
    ℕ → List α → List α → Cursor β → Option (List α × List α × Cursor β)
  | 0, left, right, target => some (left, right, target)
  | blocks + 1, left, right, target =>
    (Vec4.load left).bind fun (l, left) =>
      (Vec4.load right).bind fun (r, right) =>
        (storeBlock l r target).bind fun target =>
          interleaveBlockLoop storeBlock blocks left right target

/-- The blocks of a count and then its tail. -/
def interleaveVector (storeBlock : Vec4 α → Vec4 α → Cursor β → Option (Cursor β))
    (convert : α → β) (count : ℕ) (left right : List α) (target : Cursor β) :
    Option (Cursor β) :=
  (interleaveBlockLoop storeBlock (roundedCount count / 4) left right target).bind
    fun (left, right, target) =>
      interleaveScalarLoop convert (count - roundedCount count) left right target

/-- `interleave_stereo_f32` without SSE. -/
def interleaveStereoF32Scalar (count : ℕ) (left right : List α) (target : Cursor α) :
    Option (Cursor α) :=
  interleaveScalarLoop id count left right target

/-- What the SSE version stores of a block. -/
def storeBlockSse (l r : Vec4 α) (target : Cursor α) : Option (Cursor α) :=
  (target.storeAt 0 (l.unpacklo r).lanes).bind fun target =>
    (target.storeAt 4 (l.unpackhi r).lanes).map fun target => target.advance 8

/-- `interleave_stereo_f32` with SSE. -/
def interleaveStereoF32Sse (count : ℕ) (left right : List α) (target : Cursor α) :
    Option (Cursor α) :=
  interleaveVector storeBlockSse id count left right target

end

/-! ### Conversion to 16 bits -/

/-- A sample whose scaling by `0x8000` is exact and whose conversion to `int32_t` is
defined. -/
structure Sample where
  /-- The value. -/
  value : ℚ
  /-- It is a dyadic rational. -/
  dyadic : ∃ n, value.den = 2 ^ n
  /-- Scaled, it is below `2 ^ 31`. -/
  bounded : |value * 0x8000| < 2 ^ 31

/-- `v * 0x8000` -/
def Sample.scaled (v : Sample) : ℚ := v.value * 0x8000

/-- `f32_to_i16`: `roundf` rounds halves away from zero. -/
def f32ToI16 (v : Sample) : Int16 :=
  let i := halfAway v.scaled
  if i > 0x7fff then 0x7fff
  else if i < -0x8000 then -0x8000
  else Int16.ofInt i

/-- One lane of the NEON conversion: `vcvtq_s32_f32` rounds toward zero, `vqmovn_s32`
saturates. -/
def f32ToI16Lane (v : Sample) : Int16 :=
  Int16.ofInt (saturate (-0x8000) 0x7fff (truncate v.scaled))

/-- `interleave_stereo_f32_i16` without NEON. -/
def interleaveStereoF32I16Scalar (count : ℕ) (left right : List Sample) (target : Cursor Int16) :
    Option (Cursor Int16) :=
  interleaveScalarLoop f32ToI16 count left right target

/-- What the NEON version stores of a block: `vst2_s16` stores the lanes of the two vectors by
turns. -/
def storeBlockNeon (l r : Vec4 Sample) (target : Cursor Int16) : Option (Cursor Int16) :=
  (target.storeAt 0 (interleave (l.map f32ToI16Lane).lanes (r.map f32ToI16Lane).lanes)).map
    fun target => target.advance 8

/-- `interleave_stereo_f32_i16` with NEON. -/
def interleaveStereoF32I16Neon (count : ℕ) (left right : List Sample) (target : Cursor Int16) :
    Option (Cursor Int16) :=
  interleaveVector storeBlockNeon f32ToI16 count left right target

/-! ### What the loops put -/

section

variable {α β : Type*}

/-- Channels that are cut at the same place are interleaved piece by piece. -/
theorem interleave_append {left right : List α} (heq : left.length = right.length)
    (left' right' : List α) :
    interleave (left ++ left') (right ++ right') =
      interleave left right ++ interleave left' right' := by
  rw [interleave, List.zip_append heq, List.flatMap_append]
  rfl

/-- A frame at the front. -/
theorem interleave_cons (l r : α) (left right : List α) :
    interleave (l :: left) (r :: right) = l :: r :: interleave left right := rfl

/-- Two samples a frame. -/
theorem interleave_length {left right : List α} (heq : left.length = right.length) :
    (interleave left right).length = 2 * left.length := by
  induction left generalizing right with
  | nil => rfl
  | cons l left ih =>
    cases right with
    | nil => simp at heq
    | cons r right =>
      rw [interleave_cons, List.length_cons, List.length_cons, ih (by simpa using heq),
        List.length_cons]
      omega

/-- The place of each sample. -/
theorem interleave_getElem? {left right : List α} (heq : left.length = right.length) (i : ℕ) :
    (interleave left right)[2 * i]? = left[i]? ∧
      (interleave left right)[2 * i + 1]? = right[i]? := by
  induction left generalizing right i with
  | nil =>
    obtain rfl : right = [] := List.length_eq_zero_iff.mp heq.symm
    simp [interleave]
  | cons l left ih =>
    cases right with
    | nil => simp at heq
    | cons r right =>
      rw [interleave_cons]
      cases i with
      | zero => simp
      | succ i =>
        have hlen : left.length = right.length := by simpa using heq
        have hsucc := ih hlen i
        have hdouble : 2 * (i + 1) = 2 * i + 1 + 1 := by omega
        rw [hdouble]
        simpa using hsucc

/-- Channels are read back from their frames. -/
theorem interleave_inj {left right left' right' : List α} (heq : left.length = right.length)
    (heq' : left'.length = right'.length) :
    interleave left right = interleave left' right' ↔ left = left' ∧ right = right' := by
  constructor
  · intro hframes
    constructor
    · apply List.ext_getElem?
      intro i
      rw [← (interleave_getElem? heq i).1, hframes, (interleave_getElem? heq' i).1]
    · apply List.ext_getElem?
      intro i
      rw [← (interleave_getElem? heq i).2, hframes, (interleave_getElem? heq' i).2]
  · rintro ⟨rfl, rfl⟩
    rfl

/-- The frame loop puts the converted frames. -/
theorem interleaveScalarLoop_eq (convert : α → β) {count : ℕ} {left right : List α}
    (hleft : count ≤ left.length) (hright : count ≤ right.length) (target : Cursor β) :
    interleaveScalarLoop convert count left right target =
      target.put (interleave ((left.take count).map convert) ((right.take count).map convert)) := by
  induction count generalizing left right target with
  | zero => rfl
  | succ count ih =>
    obtain ⟨l, left, rfl⟩ := List.exists_cons_of_length_pos (by omega : 0 < left.length)
    obtain ⟨r, right, rfl⟩ := List.exists_cons_of_length_pos (by omega : 0 < right.length)
    simp only [List.length_cons, Nat.add_le_add_iff_right] at hleft hright
    rw [interleaveScalarLoop, List.take_succ_cons, List.take_succ_cons, List.map_cons,
      List.map_cons, interleave_cons, Cursor.put_cons target (convert l) (convert r :: _)]
    congr 1
    funext target
    rw [Cursor.put_cons target (convert r) (interleave _ _)]
    congr 1
    funext target
    exact ih hleft hright target

/-- A block is loaded where four samples are left. -/
theorem Vec4.load_eq {p : List α} (hlength : 4 ≤ p.length) :
    ∃ v, Vec4.load p = some (v, p.drop 4) ∧ p.take 4 = v.lanes := by
  match p with
  | x0 :: x1 :: x2 :: x3 :: rest => exact ⟨⟨x0, x1, x2, x3⟩, rfl, rfl⟩
  | [] | [_] | [_, _] | [_, _, _] => simp at hlength

/-- The block loop puts the converted blocks, when each block is stored as its converted
frames. -/
theorem interleaveBlockLoop_eq {storeBlock : Vec4 α → Vec4 α → Cursor β → Option (Cursor β)}
    {f : α → β} (hblock : ∀ l r target, storeBlock l r target =
      target.put (interleave (l.lanes.map f) (r.lanes.map f))) {blocks : ℕ}
    {left right : List α} (hleft : 4 * blocks ≤ left.length) (hright : 4 * blocks ≤ right.length)
    (target : Cursor β) :
    interleaveBlockLoop storeBlock blocks left right target =
      (target.put (interleave ((left.take (4 * blocks)).map f)
        ((right.take (4 * blocks)).map f))).map
          fun target => (left.drop (4 * blocks), right.drop (4 * blocks), target) := by
  induction blocks generalizing left right target with
  | zero => rfl
  | succ blocks ih =>
    obtain ⟨l, hl, hltake⟩ := Vec4.load_eq (by omega : 4 ≤ left.length)
    obtain ⟨r, hr, hrtake⟩ := Vec4.load_eq (by omega : 4 ≤ right.length)
    have hsucc : 4 * (blocks + 1) = 4 + 4 * blocks := by omega
    rw [interleaveBlockLoop, hl, hr, hsucc, List.take_add, List.take_add, hltake, hrtake,
      List.map_append, List.map_append, interleave_append (by simp [Vec4.lanes]),
      Cursor.put_append]
    simp only [Option.bind_some, hblock]
    rw [Option.map_bind]
    congr 1
    funext target
    rw [ih (by rw [List.length_drop]; omega) (by rw [List.length_drop]; omega)]
    simp only [List.drop_drop, Function.comp_apply]

/-- The rounded count is a number of whole blocks within the count. -/
theorem roundedCount_spec (count : ℕ) :
    4 * (roundedCount count / 4) = roundedCount count ∧ roundedCount count ≤ count := by
  rw [roundedCount]
  omega

/-- The vector version puts the blocks as the blocks are converted and the tail frame by
frame. -/
theorem interleaveVector_eq {storeBlock : Vec4 α → Vec4 α → Cursor β → Option (Cursor β)}
    {f : α → β} (hblock : ∀ l r target, storeBlock l r target =
      target.put (interleave (l.lanes.map f) (r.lanes.map f))) (convert : α → β) {count : ℕ}
    {left right : List α} (hleft : count ≤ left.length) (hright : count ≤ right.length)
    (target : Cursor β) :
    let n := roundedCount count
    interleaveVector storeBlock convert count left right target =
      target.put (interleave
        ((left.take n).map f ++ ((left.drop n).take (count - n)).map convert)
        ((right.take n).map f ++ ((right.drop n).take (count - n)).map convert)) := by
  intro n
  obtain ⟨hblocks, hn⟩ := roundedCount_spec count
  rw [interleaveVector, interleaveBlockLoop_eq hblock (by omega) (by omega), hblocks,
    interleave_append (by simp; omega), Cursor.put_append, Option.bind_map]
  congr 1
  funext target
  exact interleaveScalarLoop_eq convert (by rw [List.length_drop]; omega)
    (by rw [List.length_drop]; omega) target

/-- The two stores of an SSE block put its frames. -/
theorem storeBlockSse_eq (l r : Vec4 α) (target : Cursor α) :
    storeBlockSse l r target = target.put (interleave (l.lanes.map id) (r.lanes.map id)) :=
  Cursor.storeAt_storeAt target (l.unpacklo r).lanes (l.unpackhi r).lanes

/-- **Both versions of `interleave_stereo_f32` put the frames of their channels.** -/
theorem interleaveStereoF32_eq {count : ℕ} {left right : List α} (hleft : count ≤ left.length)
    (hright : count ≤ right.length) (target : Cursor α) :
    interleaveStereoF32Scalar count left right target =
        target.put (interleave (left.take count) (right.take count)) ∧
      interleaveStereoF32Sse count left right target =
        target.put (interleave (left.take count) (right.take count)) := by
  constructor
  · have hscalar := interleaveScalarLoop_eq id hleft hright target
    rwa [List.map_id, List.map_id] at hscalar
  · have hn := (roundedCount_spec count).2
    have hvector := interleaveVector_eq storeBlockSse_eq id hleft hright target
    simp only [List.map_id] at hvector
    rw [interleaveStereoF32Sse, hvector, ← List.take_add, ← List.take_add,
      Nat.add_sub_of_le hn]

end

end Sussybard

import Sussybard.Dsp

/-!
# The 16-bit conversion on the two paths

The scalar path of `interleave_stereo_f32_i16` rounds to the nearest integer,
the blocks of its NEON path truncate. Both saturate. What a block writes for a
sample is therefore what the scalar path writes exactly where truncation and
rounding agree behind the saturation.
-/

namespace Sussybard

open Buffer Rounding

/-- Truncation and rounding agree on the sample: the fractional part of the scaled sample is
below one half, or the scaled sample is at or beyond a limit of `int16_t`. -/
def Sample.RoundsAlike (v : Sample) : Prop :=
  |v.scaled - truncate v.scaled| < 1 / 2 ∨ 0x7fff ≤ v.scaled ∨ v.scaled ≤ -0x8000

/-- `f32_to_i16` saturates the rounded sample. -/
theorem f32ToI16_eq (v : Sample) :
    f32ToI16 v = Int16.ofInt (saturate (-0x8000) 0x7fff (halfAway v.scaled)) := by
  rw [f32ToI16, saturate]
  split_ifs <;> rfl

/-- A saturated value is within the limits. -/
theorem saturate_bounds (i : ℤ) :
    -2 ^ 15 ≤ saturate (-0x8000) 0x7fff i ∧ saturate (-0x8000) 0x7fff i < 2 ^ 15 := by
  rw [saturate]
  split_ifs <;> omega

/-- A lane of a block is converted as the scalar path converts the sample exactly where
truncation and rounding agree. -/
theorem lane_eq_iff (v : Sample) : f32ToI16Lane v = f32ToI16 v ↔ v.RoundsAlike := by
  obtain ⟨hlow, hhigh⟩ := saturate_bounds (truncate v.scaled)
  obtain ⟨hlow', hhigh'⟩ := saturate_bounds (halfAway v.scaled)
  have hagree := saturate_truncate_eq_iff (by decide : (-0x8000 : ℤ) ≤ 0)
    (by decide : (0 : ℤ) ≤ 0x7fff) v.scaled
  rw [f32ToI16_eq, f32ToI16Lane, ← Int16.toInt_inj, Int16.toInt_ofInt_of_le hlow hhigh,
    Int16.toInt_ofInt_of_le hlow' hhigh', hagree, Sample.RoundsAlike]
  norm_num

/-- The store of a NEON block puts its converted frames. -/
theorem storeBlockNeon_eq (l r : Vec4 Sample) (target : Cursor Int16) :
    storeBlockNeon l r target =
      target.put (interleave (l.lanes.map f32ToI16Lane) (r.lanes.map f32ToI16Lane)) := rfl

/-- What the NEON path puts. -/
theorem interleaveStereoF32I16Neon_eq {count : ℕ} {left right : List Sample}
    (hleft : count ≤ left.length) (hright : count ≤ right.length) (target : Cursor Int16) :
    let n := roundedCount count
    interleaveStereoF32I16Neon count left right target =
      target.put (interleave
        ((left.take n).map f32ToI16Lane ++ ((left.drop n).take (count - n)).map f32ToI16)
        ((right.take n).map f32ToI16Lane ++ ((right.drop n).take (count - n)).map f32ToI16)) :=
  interleaveVector_eq storeBlockNeon_eq f32ToI16 hleft hright target

/-- What the scalar path puts. -/
theorem interleaveStereoF32I16Scalar_eq {count : ℕ} {left right : List Sample}
    (hleft : count ≤ left.length) (hright : count ≤ right.length) (target : Cursor Int16) :
    interleaveStereoF32I16Scalar count left right target =
      target.put (interleave ((left.take count).map f32ToI16) ((right.take count).map f32ToI16)) :=
  interleaveScalarLoop_eq f32ToI16 hleft hright target

/-- A converted channel is the same on both paths exactly if the samples of its blocks are. -/
theorem channel_eq_iff {n count : ℕ} (hn : n ≤ count) (channel : List Sample) :
    (channel.take n).map f32ToI16Lane ++ ((channel.drop n).take (count - n)).map f32ToI16 =
        (channel.take count).map f32ToI16 ↔
      ∀ i < n, ∀ v ∈ channel[i]?, v.RoundsAlike := by
  have htake : channel.take count = channel.take n ++ (channel.drop n).take (count - n) := by
    rw [← List.take_add, Nat.add_sub_of_le hn]
  rw [htake, List.map_append, List.append_cancel_right_eq, List.map_inj_left]
  simp only [lane_eq_iff]
  constructor
  · intro halike i hi v hv
    refine halike v (List.mem_iff_getElem?.mpr ⟨i, ?_⟩)
    rw [List.getElem?_take_of_lt hi]
    exact hv
  · intro halike v hv
    obtain ⟨i, hi⟩ := List.mem_iff_getElem?.mp hv
    have hlt : i < n := by
      by_contra hge
      rw [List.getElem?_take_eq_none (by omega)] at hi
      cases hi
    rw [List.getElem?_take_of_lt hlt] at hi
    exact halike i hlt v hi

/-- **When the NEON path agrees with the scalar path.** For every count, all samples and every
target with room, the two versions of `interleave_stereo_f32_i16` write the same `int16_t`
sequence if and only if truncation and rounding agree, behind the saturation, on every sample
of the four-frame blocks. -/
theorem neon_eq_scalar_iff {count : ℕ} {left right : List Sample} (hleft : count ≤ left.length)
    (hright : count ≤ right.length) {target : Cursor Int16}
    (hroom : target.pos + 2 * count ≤ target.buffer.length) :
    interleaveStereoF32I16Neon count left right target =
        interleaveStereoF32I16Scalar count left right target ↔
      ∀ i < roundedCount count,
        (∀ v ∈ left[i]?, v.RoundsAlike) ∧ ∀ v ∈ right[i]?, v.RoundsAlike := by
  have hn := (roundedCount_spec count).2
  rw [interleaveStereoF32I16Neon_eq hleft hright, interleaveStereoF32I16Scalar_eq hleft hright,
    Cursor.put_inj, interleave_inj, channel_eq_iff hn left, channel_eq_iff hn right]
  · exact ⟨fun h i hi => ⟨h.1 i hi, h.2 i hi⟩, fun h => ⟨fun i hi => (h i hi).1,
      fun i hi => (h i hi).2⟩⟩
  · simp only [List.length_append, List.length_map, List.length_take, List.length_drop]
    omega
  · simp only [List.length_map, List.length_take]
    omega
  · rw [interleave_length (by simp; omega), interleave_length (by simp; omega)]
    simp only [List.length_append, List.length_map, List.length_take, List.length_drop]
    omega
  · rw [interleave_length (by simp; omega)]
    simp only [List.length_append, List.length_map, List.length_take, List.length_drop]
    omega

/-- A sample that scales to five quarters. -/
def quietSample : Sample where
  value := 5 / 131072
  dyadic := ⟨17, by decide +kernel⟩
  bounded := by norm_num

/-- A sample that scales to one and a half times the upper limit. -/
def loudSample : Sample where
  value := 3 / 2
  dyadic := ⟨1, by decide +kernel⟩
  bounded := by norm_num

/-- A sample that scales to one half. -/
def halfSample : Sample where
  value := 1 / 65536
  dyadic := ⟨16, by decide +kernel⟩
  bounded := by norm_num

/-- The paths agree on five frames of a quiet and a loud sample, the last of which is beyond the
block and has a half in place of the quiet one. -/
theorem neon_eq_scalar_iff_quiet_and_loud :
    let left := List.replicate 4 quietSample ++ [halfSample]
    let right := List.replicate 5 loudSample
    interleaveStereoF32I16Neon 5 left right (.start (List.replicate 10 0)) =
      interleaveStereoF32I16Scalar 5 left right (.start (List.replicate 10 0)) := by
  intro left right
  have hquiet : quietSample.RoundsAlike := by
    left
    have htrunc : truncate (5 / 4 : ℚ) = 1 := by
      rw [truncate, if_pos (by norm_num), Int.floor_eq_iff]
      norm_num
    have hscaled : quietSample.scaled = 5 / 4 := by norm_num [Sample.scaled, quietSample]
    rw [hscaled, htrunc]
    norm_num [abs_lt]
  have hloud : loudSample.RoundsAlike := by
    right
    left
    norm_num [Sample.scaled, loudSample]
  refine (neon_eq_scalar_iff (by decide) (by decide) (by decide)).mpr fun i hi => ⟨?_, ?_⟩
  · intro v hv
    rw [List.getElem?_append_left hi] at hv
    obtain rfl := List.eq_of_mem_replicate (List.mem_iff_getElem?.mpr ⟨i, hv⟩)
    exact hquiet
  · intro v hv
    obtain rfl := List.eq_of_mem_replicate (List.mem_iff_getElem?.mpr ⟨i, hv⟩)
    exact hloud

/-- Neither path overlooks it: a block converts one half to 0, the scalar path to 1. -/
theorem halfSample_converted : f32ToI16Lane halfSample = 0 ∧ f32ToI16 halfSample = 1 := by
  have hscaled : halfSample.scaled = 1 / 2 := by norm_num [Sample.scaled, halfSample]
  have htrunc : truncate (1 / 2 : ℚ) = 0 := by
    rw [truncate, if_pos (by norm_num), Int.floor_eq_iff]
    norm_num
  have hhalf : halfAway (1 / 2 : ℚ) = 1 := by
    rw [halfAway, if_pos (by norm_num), Int.floor_eq_iff]
    norm_num
  rw [f32ToI16Lane, f32ToI16, hscaled, htrunc, hhalf]
  exact ⟨rfl, rfl⟩

/-- Five frames of one half. -/
def halfFrames : List Sample := List.replicate 5 halfSample

/-- Room for five frames. -/
def fiveFrames : Cursor Int16 := .start (List.replicate 10 0)

/-- Five equal frames: the NEON path converts the four of the block to 0 and the one of the
tail to 1, the scalar path converts all of them to 1. -/
theorem neon_truncates_half :
    interleaveStereoF32I16Neon 5 halfFrames halfFrames fiveFrames =
        some ⟨[0, 0, 0, 0, 0, 0, 0, 0, 1, 1], 10⟩ ∧
      interleaveStereoF32I16Scalar 5 halfFrames halfFrames fiveFrames =
        some ⟨[1, 1, 1, 1, 1, 1, 1, 1, 1, 1], 10⟩ ∧
      interleaveStereoF32I16Neon 5 halfFrames halfFrames fiveFrames ≠
        interleaveStereoF32I16Scalar 5 halfFrames halfFrames fiveFrames := by
  obtain ⟨hlane, hscalar⟩ := halfSample_converted
  have hneon : interleaveStereoF32I16Neon 5 halfFrames halfFrames fiveFrames =
      some ⟨[0, 0, 0, 0, 0, 0, 0, 0, 1, 1], 10⟩ := by
    rw [interleaveStereoF32I16Neon_eq (by decide) (by decide)]
    simp only [halfFrames, roundedCount, List.take_replicate, List.drop_replicate,
      List.map_replicate, hlane, hscalar]
    rfl
  have hplain : interleaveStereoF32I16Scalar 5 halfFrames halfFrames fiveFrames =
      some ⟨[1, 1, 1, 1, 1, 1, 1, 1, 1, 1], 10⟩ := by
    rw [interleaveStereoF32I16Scalar_eq (by decide) (by decide)]
    simp only [halfFrames, List.take_replicate, List.map_replicate, hscalar]
    rfl
  refine ⟨hneon, hplain, ?_⟩
  rw [hneon, hplain]
  intro heq
  injection heq with heq
  exact absurd (congrArg Cursor.buffer heq) (by decide)

end Sussybard

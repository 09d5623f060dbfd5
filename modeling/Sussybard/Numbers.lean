import Sussybard.CliParser

/-!
# The numbers of the command line

`next_int` and `next_uint` convert an argument through `long` and
`unsigned long` and check the range of the result. For signed numbers this
reads the integer that was written, on both widths of `long`. For unsigned
numbers the library negates modulo the width of `long` before the check, and a
negative numeral passes it when its negation happens to be small.
-/

namespace Sussybard

open Numeral

/-- Both readers read the integer that was written: a call returns exactly the integers of
its type that the first remaining argument starts with, a successful call takes that one
argument, and a call that throws leaves the cursor alone. -/
structure ReadsNumbers (long : LongWidth) (p : CLIParser) : Prop where
  nextInt_iff : ∀ v : ℤ, (∃ r, (p.nextInt long).1 = .ok r ∧ r.toInt = v) ↔
    (∃ arg, p.args.head? = some arg ∧ Denotes arg.toList v) ∧ -2 ^ 31 ≤ v ∧ v ≤ 2 ^ 31 - 1
  nextUint_iff : ∀ v : ℤ, (∃ r, (p.nextUint long).1 = .ok r ∧ (r.toNat : ℤ) = v) ↔
    (∃ arg, p.args.head? = some arg ∧ Denotes arg.toList v) ∧ 0 ≤ v ∧ v ≤ 2 ^ 32 - 1
  nextInt_consumes : ∀ r, (p.nextInt long).1 = .ok r →
    p.args ≠ [] ∧ (p.nextInt long).2 = { p with args := p.args.tail }
  nextUint_consumes : ∀ r, (p.nextUint long).1 = .ok r →
    p.args ≠ [] ∧ (p.nextUint long).2 = { p with args := p.args.tail }
  nextInt_throws : ∀ e, (p.nextInt long).1 = .error e → (p.nextInt long).2 = p
  nextUint_throws : ∀ e, (p.nextUint long).1 = .error e → (p.nextUint long).2 = p

/-- The first remaining argument starts with a negative numeral whose negation modulo the
width of `long` fits `unsigned`. -/
def NegationFits (long : LongWidth) (p : CLIParser) : Prop :=
  ∃ arg magnitude, p.args.head? = some arg ∧ Starts arg.toList true magnitude ∧
    0 < magnitude ∧ magnitude < 2 ^ long.bits ∧ 2 ^ long.bits - magnitude < 2 ^ 32

/-- Both widths of `long` hold every `int`. -/
theorem LongWidth.int_fits (long : LongWidth) {v : ℤ} (hlow : -2 ^ 31 ≤ v)
    (hhigh : v ≤ 2 ^ 31 - 1) : -2 ^ (long.bits - 1) ≤ v ∧ v < 2 ^ (long.bits - 1) := by
  cases long <;> simp only [LongWidth.bits, Nat.reduceSub] <;> omega

/-- Both widths of `unsigned long` hold every `unsigned`. -/
theorem LongWidth.uint_fits (long : LongWidth) {v : ℕ} (hhigh : v < 2 ^ 32) :
    v < 2 ^ long.bits := by
  cases long <;> simp only [LongWidth.bits] <;> omega

/-- What `next_int` does with its argument. -/
theorem nextInt_cons (long : LongWidth) (p : CLIParser) {arg : String} {rest : List String}
    (hargs : p.args = arg :: rest) :
    (∃ v : ℤ, Denotes arg.toList v ∧ -2 ^ 31 ≤ v ∧ v ≤ 2 ^ 31 - 1 ∧
      p.nextInt long = (.ok (Int32.ofInt v), { p with args := rest })) ∨
    ((∀ v : ℤ, Denotes arg.toList v → ¬ (-2 ^ 31 ≤ v ∧ v ≤ 2 ^ 31 - 1)) ∧
      ∃ e, p.nextInt long = (.error e, p)) := by
  obtain ⟨args, ended, unknown⟩ := p
  simp only at hargs
  subst hargs
  simp only [CLIParser.nextInt]
  cases hstol : long.stol arg with
  | error e =>
    refine .inr ⟨fun v hv hrange => ?_, _, rfl⟩
    have hok := (signedWord_eq_ok_iff long.bits arg.toList v).mpr
      ⟨hv, long.int_fits hrange.1 hrange.2⟩
    rw [← LongWidth.stol, hstol] at hok
    cases hok
  | ok val =>
    obtain ⟨hdenotes, -⟩ := (signedWord_eq_ok_iff long.bits arg.toList val).mp hstol
    by_cases hrange : val > 0x7fffffff ∨ val < -0x80000000
    · refine .inr ⟨fun v hv hfits => ?_, .outOfRange "next_int", by simp only [if_pos hrange]⟩
      obtain rfl := hdenotes.unique hv
      omega
    · refine .inl ⟨val, hdenotes, by omega, by omega, by simp only [if_neg hrange]⟩

/-- What `next_uint` does with its argument. -/
theorem nextUint_cons (long : LongWidth) (p : CLIParser) {arg : String} {rest : List String}
    (hargs : p.args = arg :: rest) :
    (∃ v : ℕ, long.stoul arg = .ok v ∧ v < 2 ^ 32 ∧
      p.nextUint long = (.ok (UInt32.ofNat v), { p with args := rest })) ∨
    ((∀ v : ℕ, long.stoul arg = .ok v → ¬ v < 2 ^ 32) ∧
      ∃ e, p.nextUint long = (.error e, p)) := by
  obtain ⟨args, ended, unknown⟩ := p
  simp only at hargs
  subst hargs
  simp only [CLIParser.nextUint]
  cases hstoul : long.stoul arg with
  | error e =>
    refine .inr ⟨fun v hv => ?_, _, rfl⟩
    cases hv
  | ok val =>
    by_cases hrange : val > 0xffffffff
    · refine .inr ⟨?_, .outOfRange "next_uint", by simp only [if_pos hrange]⟩
      rintro v ⟨rfl⟩
      omega
    · exact .inl ⟨val, rfl, by omega, by simp only [if_neg hrange]⟩

/-- `next_int` returns the `int` that its argument starts with, takes the argument when it
returns, and leaves the cursor alone when it throws. -/
theorem nextInt_spec (long : LongWidth) (p : CLIParser) :
    (∀ v : ℤ, (∃ r, (p.nextInt long).1 = .ok r ∧ r.toInt = v) ↔
      (∃ arg, p.args.head? = some arg ∧ Denotes arg.toList v) ∧ -2 ^ 31 ≤ v ∧ v ≤ 2 ^ 31 - 1) ∧
    (∀ r, (p.nextInt long).1 = .ok r →
      p.args ≠ [] ∧ (p.nextInt long).2 = { p with args := p.args.tail }) ∧
    ∀ e, (p.nextInt long).1 = .error e → (p.nextInt long).2 = p := by
  cases hargs : p.args with
  | nil => simp [CLIParser.nextInt, hargs]
  | cons arg rest =>
    simp only [List.head?_cons, Option.some.injEq, exists_eq_left']
    rcases nextInt_cons long p hargs with ⟨w, hw, hlow, hhigh, hok⟩ | ⟨hnone, e, herror⟩
    · have htoInt : (Int32.ofInt w).toInt = w := Int32.toInt_ofInt_of_le hlow (by omega)
      rw [hok]
      refine ⟨fun v => ⟨?_, ?_⟩, ?_, ?_⟩
      · rintro ⟨r, ⟨rfl⟩, rfl⟩
        rw [htoInt]
        exact ⟨hw, hlow, hhigh⟩
      · rintro ⟨hv, -⟩
        exact ⟨_, rfl, htoInt.trans (hw.unique hv)⟩
      · exact fun r _ => ⟨List.cons_ne_nil _ _, rfl⟩
      · rintro e ⟨⟩
    · rw [herror]
      refine ⟨fun v => ⟨?_, ?_⟩, ?_, fun _ _ => rfl⟩
      · rintro ⟨r, ⟨⟩, -⟩
      · rintro ⟨hv, hrange⟩
        exact absurd hrange (hnone v hv)
      · rintro r ⟨⟩

/-- `next_uint` returns what `std::stoul` makes of its argument when that fits `unsigned`,
takes the argument when it returns, and leaves the cursor alone when it throws. -/
theorem nextUint_spec (long : LongWidth) (p : CLIParser) :
    (∀ v : ℕ, (∃ r, (p.nextUint long).1 = .ok r ∧ r.toNat = v) ↔
      (∃ arg, p.args.head? = some arg ∧ long.stoul arg = .ok v) ∧ v < 2 ^ 32) ∧
    (∀ r, (p.nextUint long).1 = .ok r →
      p.args ≠ [] ∧ (p.nextUint long).2 = { p with args := p.args.tail }) ∧
    ∀ e, (p.nextUint long).1 = .error e → (p.nextUint long).2 = p := by
  cases hargs : p.args with
  | nil => simp [CLIParser.nextUint, hargs]
  | cons arg rest =>
    simp only [List.head?_cons, Option.some.injEq, exists_eq_left']
    rcases nextUint_cons long p hargs with ⟨w, hw, hfits, hok⟩ | ⟨hnone, e, herror⟩
    · have htoNat : (UInt32.ofNat w).toNat = w := UInt32.toNat_ofNat_of_lt' hfits
      rw [hok]
      refine ⟨fun v => ⟨?_, ?_⟩, ?_, ?_⟩
      · rintro ⟨r, ⟨rfl⟩, rfl⟩
        rw [htoNat]
        exact ⟨hw, hfits⟩
      · rintro ⟨hv, -⟩
        rw [hw, Except.ok.injEq] at hv
        exact ⟨_, rfl, htoNat.trans hv⟩
      · exact fun r _ => ⟨List.cons_ne_nil _ _, rfl⟩
      · rintro e ⟨⟩
    · rw [herror]
      refine ⟨fun v => ⟨?_, ?_⟩, ?_, fun _ _ => rfl⟩
      · rintro ⟨r, ⟨⟩, -⟩
      · rintro ⟨hv, hrange⟩
        exact absurd hrange (hnone v hv)
      · rintro r ⟨⟩

/-- `std::stoul` makes a nonnegative numeral the number it denotes. -/
theorem stoul_of_denotes (long : LongWidth) {arg : String} {v : ℕ}
    (hdenotes : Denotes arg.toList (v : ℤ)) (hfits : v < 2 ^ 32) : long.stoul arg = .ok v := by
  obtain ⟨negative, magnitude, hstart, hv⟩ := hdenotes
  refine (unsignedWord_eq_ok_iff _ _ _).mpr ⟨negative, magnitude, hstart, ?_⟩
  have hwide := long.uint_fits hfits
  cases negative with
  | true =>
    -- The only nonnegative integer written with a minus sign is zero.
    simp only [signed, if_true] at hv
    obtain rfl : magnitude = 0 := by omega
    obtain rfl : v = 0 := by omega
    simp [hwide]
  | false =>
    simp only [signed, Bool.false_eq_true, if_false, Nat.cast_inj] at hv
    subst hv
    exact ⟨hwide, rfl⟩

/-- A negative numeral whose negation fits is not read as it was written. -/
theorem ReadsNumbers.not_negationFits {long : LongWidth} {p : CLIParser}
    (hreads : ReadsNumbers long p) : ¬ NegationFits long p := by
  rintro ⟨arg, magnitude, harg, hstart, hpos, hfits, hwraps⟩
  have hstoul : long.stoul arg = .ok (2 ^ long.bits - magnitude) :=
    (unsignedWord_eq_ok_iff _ _ _).mpr ⟨true, magnitude, hstart, hfits, by
      rw [if_pos rfl, Nat.mod_eq_of_lt (by omega)]⟩
  obtain ⟨r, hr, hv⟩ := ((nextUint_spec long p).1 _).mpr ⟨⟨arg, harg, hstoul⟩, hwraps⟩
  obtain ⟨⟨arg', harg', hdenotes⟩, -⟩ := (hreads.nextUint_iff r.toNat).mp ⟨r, hr, rfl⟩
  obtain rfl : arg = arg' := Option.some.inj (harg.symm.trans harg')
  have hneg := hdenotes.unique ⟨true, magnitude, hstart, rfl⟩
  simp only [signed, if_true] at hneg
  omega

/-- What `std::stoul` makes of an argument is what the argument denotes, unless the argument
is a negative numeral whose negation fits. -/
theorem denotes_of_stoul {long : LongWidth} {p : CLIParser} (hnot : ¬ NegationFits long p)
    {arg : String} (harg : p.args.head? = some arg) {v : ℕ} (hstoul : long.stoul arg = .ok v)
    (hsmall : v < 2 ^ 32) : Denotes arg.toList (v : ℤ) := by
  obtain ⟨negative, magnitude, hstart, hfits, hvalue⟩ := (unsignedWord_eq_ok_iff _ _ _).mp hstoul
  refine ⟨negative, magnitude, hstart, ?_⟩
  cases negative with
  | false => simp [signed, hvalue]
  | true =>
    rw [if_pos rfl] at hvalue
    have hzero : magnitude = 0 := by
      by_contra hne
      rw [Nat.mod_eq_of_lt (by omega)] at hvalue
      exact hnot ⟨arg, magnitude, harg, hstart, by omega, hfits, by omega⟩
    rw [hzero, Nat.sub_zero, Nat.mod_self] at hvalue
    simp [signed, hzero, hvalue]

/-- **When numbers are read as written.** On both widths of `long` and for every remaining
argument vector, `next_int` and `next_uint` return exactly the integers of their types that
the first remaining argument starts with, take that one argument when they return and leave
the cursor alone when they throw, if and only if that argument does not start with a negative
numeral whose negation modulo the width of `long` fits `unsigned`. -/
theorem reads_numbers_iff (long : LongWidth) (p : CLIParser) :
    ReadsNumbers long p ↔ ¬ NegationFits long p := by
  refine ⟨ReadsNumbers.not_negationFits, fun hnot => ?_⟩
  obtain ⟨hint, hintOk, hintError⟩ := nextInt_spec long p
  obtain ⟨huint, huintOk, huintError⟩ := nextUint_spec long p
  refine ⟨hint, fun v => ⟨?_, ?_⟩, hintOk, huintOk, hintError, huintError⟩
  · rintro ⟨r, hr, rfl⟩
    obtain ⟨⟨arg, harg, hstoul⟩, hsmall⟩ := (huint r.toNat).mp ⟨r, hr, rfl⟩
    exact ⟨⟨arg, harg, denotes_of_stoul hnot harg hstoul hsmall⟩, by omega, by omega⟩
  · rintro ⟨⟨arg, harg, hdenotes⟩, hlow, hhigh⟩
    obtain ⟨n, rfl⟩ := Int.eq_ofNat_of_zero_le hlow
    have hsmall : n < 2 ^ 32 := by omega
    have hstoul := stoul_of_denotes long hdenotes hsmall
    obtain ⟨r, hr, hn⟩ := (huint n).mpr ⟨⟨arg, harg, hstoul⟩, hsmall⟩
    exact ⟨r, hr, congrArg Nat.cast hn⟩

/-- With a 64-bit `long`, `next_uint` reads `-18446744073709551615` as 1; with a 32-bit one
it reads `-1` as the largest `unsigned`. -/
theorem nextUint_reads_negative :
    ((CLIParser.new ["-18446744073709551615"]).nextUint .bits64).1 = .ok 1 ∧
      ¬ ReadsNumbers .bits64 (.new ["-18446744073709551615"]) ∧
      ((CLIParser.new ["-1"]).nextUint .bits32).1 = .ok 0xffffffff ∧
      ¬ ReadsNumbers .bits32 (.new ["-1"]) := by
  have hlong : NegationFits .bits64 (.new ["-18446744073709551615"]) :=
    ⟨_, 18446744073709551615, rfl, (scan_eq_some_iff _ _ _).mp (by decide), by decide, by decide,
      by decide⟩
  have hshort : NegationFits .bits32 (.new ["-1"]) :=
    ⟨_, 1, rfl, (scan_eq_some_iff _ _ _).mp (by decide), by decide, by decide, by decide⟩
  exact ⟨rfl, fun hreads => hreads.not_negationFits hlong, rfl,
    fun hreads => hreads.not_negationFits hshort⟩

end Sussybard

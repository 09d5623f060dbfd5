import Mathlib.Data.Nat.Digits.Defs
import Mathlib.Data.List.TakeWhile

/-!
# Decimal numerals at the start of a text

What `strtol` and `strtoul` read in base ten: optional white space, an optional
sign and the longest run of digits, with anything after it ignored. `scan` is
that reading as a function; `Starts` says what it means for a text to start with
a numeral. The conversions of the two functions to a machine word follow, with
their different ranges and the modular negation of the unsigned one.
-/

namespace Numeral

/-- The white space of the C locale. -/
def isSpace (c : Char) : Bool :=
  c == ' ' || c == '\t' || c == '\n' || c == '\x0b' || c == '\x0c' || c == '\r'

/-- The value of a digit. -/
def digitValue (c : Char) : ℕ := c.toNat - '0'.toNat

/-- The value of a run of digits, most significant first. -/
def value (digits : List Char) : ℕ :=
  digits.foldl (fun v c => 10 * v + digitValue c) 0

/-- An optional sign, and what follows it. -/
def takeSign : List Char → Bool × List Char
  | '-' :: rest => (true, rest)
  | '+' :: rest => (false, rest)
  | text => (false, text)

/-- The sign and the magnitude of the numeral at the start of a text, if there is one. -/
def scan (text : List Char) : Option (Bool × ℕ) :=
  let (negative, rest) := takeSign (text.dropWhile isSpace)
  let digits := rest.takeWhile Char.isDigit
  if digits.isEmpty then none else some (negative, value digits)

/-- The spellings of a sign. -/
inductive Sign : Bool → List Char → Prop
  | minus : Sign true ['-']
  | plus : Sign false ['+']
  | none : Sign false []

/-- A text starts with the numeral of the given sign and magnitude: white space, a sign, one
digit or more, and then the end or something that is no digit. -/
def Starts (text : List Char) (negative : Bool) (magnitude : ℕ) : Prop :=
  ∃ spaces sign digits rest, text = spaces ++ (sign ++ (digits ++ rest)) ∧
    (∀ c ∈ spaces, isSpace c) ∧ Sign negative sign ∧ digits ≠ [] ∧
    (∀ c ∈ digits, c.isDigit) ∧ (∀ c ∈ rest.head?, ¬ c.isDigit) ∧
    magnitude = Nat.ofDigits 10 (digits.reverse.map digitValue)

/-- The integer of a sign and a magnitude. -/
def signed (negative : Bool) (magnitude : ℕ) : ℤ :=
  if negative then -(magnitude : ℤ) else magnitude

/-- The numeral at the start of the text denotes the integer. -/
def Denotes (text : List Char) (v : ℤ) : Prop :=
  ∃ negative magnitude, Starts text negative magnitude ∧ signed negative magnitude = v

/-- Reading digit by digit is positional notation. -/
theorem value_eq_ofDigits (digits : List Char) :
    value digits = Nat.ofDigits 10 (digits.reverse.map digitValue) := by
  rw [Nat.ofDigits_eq_foldr, List.foldr_map, List.foldr_reverse]
  simp [value, Nat.add_comm]

/-- A digit is neither white space nor a sign. -/
theorem not_space_of_isDigit {c : Char} (hdigit : c.isDigit) :
    isSpace c = false ∧ c ≠ '-' ∧ c ≠ '+' := by
  refine ⟨?_, ?_, ?_⟩
  · by_contra hspace
    simp only [isSpace, Bool.or_eq_false_iff, beq_eq_false_iff_ne, not_and_or, not_not] at hspace
    rcases hspace with ((((rfl | rfl) | rfl) | rfl) | rfl) | rfl <;>
      exact absurd hdigit (by decide)
  · rintro rfl
    exact absurd hdigit (by decide)
  · rintro rfl
    exact absurd hdigit (by decide)

/-- Taking a sign off splits the text. -/
theorem takeSign_spec (text : List Char) :
    ∃ sign, Sign (takeSign text).1 sign ∧ text = sign ++ (takeSign text).2 := by
  rw [takeSign.eq_def]
  split
  · exact ⟨['-'], .minus, rfl⟩
  · exact ⟨['+'], .plus, rfl⟩
  · exact ⟨[], .none, rfl⟩

/-- A sign before a digit is taken off whole. -/
theorem takeSign_append {negative : Bool} {sign : List Char} (hsign : Sign negative sign)
    {d : Char} (hdigit : d.isDigit) (rest : List Char) :
    takeSign (sign ++ d :: rest) = (negative, d :: rest) := by
  obtain ⟨-, hminus, hplus⟩ := not_space_of_isDigit hdigit
  cases hsign with
  | minus => rfl
  | plus => rfl
  | none =>
    rw [List.nil_append, takeSign.eq_def]
    split
    · next heq => exact absurd (List.cons.inj heq).1 hminus
    · next heq => exact absurd (List.cons.inj heq).1 hplus
    · rfl

/-- White space ends where a sign or a digit stands. -/
theorem dropWhile_spaces {spaces : List Char} (hspaces : ∀ c ∈ spaces, isSpace c)
    {negative : Bool} {sign : List Char} (hsign : Sign negative sign)
    {d : Char} (hdigit : d.isDigit) (rest : List Char) :
    (spaces ++ (sign ++ d :: rest)).dropWhile isSpace = sign ++ d :: rest := by
  rw [List.dropWhile_append_of_pos hspaces]
  cases hsign with
  | minus => rfl
  | plus => rfl
  | none =>
    rw [List.nil_append, List.dropWhile_cons_of_neg]
    simp [(not_space_of_isDigit hdigit).1]

/-- The run of digits is the longest one. -/
theorem takeWhile_digits {digits rest : List Char} (hdigits : ∀ c ∈ digits, c.isDigit)
    (hrest : ∀ c ∈ rest.head?, ¬ c.isDigit) :
    (digits ++ rest).takeWhile Char.isDigit = digits := by
  rw [List.takeWhile_append_of_pos hdigits]
  cases rest with
  | nil => simp
  | cons c rest => rw [List.takeWhile_cons_of_neg (hrest c rfl), List.append_nil]

/-- **The scan reads the numeral at the start of the text**, and fails where there is none. -/
theorem scan_eq_some_iff (text : List Char) (negative : Bool) (magnitude : ℕ) :
    scan text = some (negative, magnitude) ↔ Starts text negative magnitude := by
  constructor
  · intro hscan
    obtain ⟨sign, hsign, htext⟩ := takeSign_spec (text.dropWhile isSpace)
    rw [scan] at hscan
    revert hscan hsign htext
    generalize takeSign (text.dropWhile isSpace) = signed
    obtain ⟨negative', rest⟩ := signed
    intro hscan hsign htext
    simp only at hscan hsign htext
    by_cases hempty : (rest.takeWhile Char.isDigit).isEmpty
    · simp [hempty] at hscan
    · rw [if_neg hempty, Option.some.injEq, Prod.mk.injEq] at hscan
      obtain ⟨rfl, rfl⟩ := hscan
      refine ⟨text.takeWhile isSpace, sign, rest.takeWhile Char.isDigit,
        rest.dropWhile Char.isDigit, ?_, ?_, hsign, ?_, ?_, ?_, value_eq_ofDigits _⟩
      · rw [List.takeWhile_append_dropWhile, ← htext, List.takeWhile_append_dropWhile]
      · exact fun c hc => List.mem_takeWhile_imp hc
      · simpa using hempty
      · exact fun c hc => List.mem_takeWhile_imp hc
      · intro c hc
        have := List.head?_dropWhile_not Char.isDigit rest
        rw [hc] at this
        simpa using this
  · rintro ⟨spaces, sign, digits, rest, rfl, hspaces, hsign, hne, hdigits, hrest, rfl⟩
    obtain ⟨d, ds, rfl⟩ := List.exists_cons_of_ne_nil hne
    have hd : d.isDigit := hdigits d List.mem_cons_self
    rw [scan, List.cons_append, dropWhile_spaces hspaces hsign hd,
      takeSign_append hsign hd, ← List.cons_append]
    simp only [takeWhile_digits hdigits hrest, value_eq_ofDigits]
    rfl

/-- A text starts with at most one numeral. -/
theorem Denotes.unique {text : List Char} {v w : ℤ} (hv : Denotes text v) (hw : Denotes text w) :
    v = w := by
  obtain ⟨negative, magnitude, hstart, rfl⟩ := hv
  obtain ⟨negative', magnitude', hstart', rfl⟩ := hw
  rw [← scan_eq_some_iff] at hstart hstart'
  rw [hstart, Option.some.injEq, Prod.mk.injEq] at hstart'
  rw [hstart'.1, hstart'.2]

/-! ### The conversions to a machine word -/

/-- Why a conversion fails. -/
inductive ConversionError where
  /-- The text starts with no numeral. -/
  | noDigits
  /-- The numeral does not fit the type. -/
  | outOfRange
  deriving DecidableEq, Repr

/-- `strtol` in base ten, for a signed word of the given width, with its failures reported. -/
def signedWord (width : ℕ) (text : List Char) : Except ConversionError ℤ :=
  match scan text with
  | none => .error .noDigits
  | some (negative, magnitude) =>
    let v := signed negative magnitude
    if -2 ^ (width - 1) ≤ v ∧ v < 2 ^ (width - 1) then .ok v else .error .outOfRange

/-- `strtoul` in base ten, for an unsigned word of the given width, with its failures
reported. A minus sign negates the magnitude modulo the width. -/
def unsignedWord (width : ℕ) (text : List Char) : Except ConversionError ℕ :=
  match scan text with
  | none => .error .noDigits
  | some (negative, magnitude) =>
    if magnitude < 2 ^ width then
      .ok (if negative then (2 ^ width - magnitude) % 2 ^ width else magnitude)
    else .error .outOfRange

/-- The signed conversion returns the integer that the numeral denotes, if it fits. -/
theorem signedWord_eq_ok_iff (width : ℕ) (text : List Char) (v : ℤ) :
    signedWord width text = .ok v ↔
      Denotes text v ∧ -2 ^ (width - 1) ≤ v ∧ v < 2 ^ (width - 1) := by
  rw [signedWord]
  cases hscan : scan text with
  | none =>
    have hnone : ¬ Denotes text v := by
      rintro ⟨negative, magnitude, hstart, -⟩
      rw [← scan_eq_some_iff, hscan] at hstart
      cases hstart
    simp [hnone]
  | some numeral =>
    obtain ⟨negative, magnitude⟩ := numeral
    have hdenotes : Denotes text (signed negative magnitude) :=
      ⟨negative, magnitude, (scan_eq_some_iff _ _ _).mp hscan, rfl⟩
    by_cases hfits : -2 ^ (width - 1) ≤ signed negative magnitude ∧
        signed negative magnitude < 2 ^ (width - 1)
    · simp only [if_pos hfits, Except.ok.injEq]
      constructor
      · rintro rfl
        exact ⟨hdenotes, hfits⟩
      · rintro ⟨hv, -⟩
        exact hdenotes.unique hv
    · simp only [if_neg hfits, reduceCtorEq, false_iff]
      rintro ⟨hv, hrange⟩
      rw [← hdenotes.unique hv] at hrange
      exact hfits hrange

/-- The unsigned conversion returns the magnitude of the numeral, negated modulo the width
after a minus sign, if the magnitude fits. -/
theorem unsignedWord_eq_ok_iff (width : ℕ) (text : List Char) (v : ℕ) :
    unsignedWord width text = .ok v ↔
      ∃ negative magnitude, Starts text negative magnitude ∧ magnitude < 2 ^ width ∧
        v = if negative then (2 ^ width - magnitude) % 2 ^ width else magnitude := by
  simp only [← scan_eq_some_iff]
  rw [unsignedWord]
  cases hscan : scan text with
  | none => simp
  | some numeral =>
    obtain ⟨negative, magnitude⟩ := numeral
    by_cases hfits : magnitude < 2 ^ width
    · simp [hfits, eq_comm]
    · simp [hfits]

end Numeral

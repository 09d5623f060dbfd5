import Sussybard.General.Numeral

/-!
# Integer constants and separators in a text

What `strtoul` reads in base zero: an integer constant as C writes it, whose
first characters say whether it is decimal, octal or hexadecimal. `scan` is
that reading as a function; `Starts` says what it means for a text to start with
a constant, the longest that stands there. `splitLast` cuts a text at the last
of its separators, as `strrchr` does.
-/

namespace Text

open Numeral (isSpace takeSign Sign)

/-- The value of a digit in the bases up to sixteen, and sixteen for anything else. -/
def digit (c : Char) : ℕ :=
  if '0' ≤ c ∧ c ≤ '9' then c.toNat - '0'.toNat
  else if 'a' ≤ c ∧ c ≤ 'f' then c.toNat - 'a'.toNat + 10
  else if 'A' ≤ c ∧ c ≤ 'F' then c.toNat - 'A'.toNat + 10
  else 16

/-- The digits of a base. -/
def isDigit (base : ℕ) (c : Char) : Bool := decide (digit c < base)

/-- The value of a run of digits, most significant first, that follows a number. -/
def valueFrom (base : ℕ) (v : ℕ) (digits : List Char) : ℕ :=
  digits.foldl (fun v c => base * v + digit c) v

/-- The value of a run of digits. -/
def value (base : ℕ) (digits : List Char) : ℕ := valueFrom base 0 digits

/-- The base that the start of a text selects, and the text from its digits on. -/
def select : List Char → ℕ × List Char
  | '0' :: x :: d :: rest =>
    if (x = 'x' ∨ x = 'X') ∧ isDigit 16 d then (16, d :: rest) else (8, '0' :: x :: d :: rest)
  | '0' :: rest => (8, '0' :: rest)
  | text => (10, text)

/-- The value of the constant at the start of a text that has no sign. -/
def scanConstant (text : List Char) : Option ℕ :=
  let (base, rest) := select text
  let digits := rest.takeWhile (isDigit base)
  if digits.isEmpty then none else some (value base digits)

/-- The sign and the magnitude of the constant at the start of a text, if there is one. -/
def scan (text : List Char) : Option (Bool × ℕ) :=
  let (negative, rest) := takeSign (text.dropWhile isSpace)
  (scanConstant rest).map (negative, ·)

/-- The integer constants of C, without a suffix, and their values. -/
inductive Constant : List Char → ℕ → Prop
  | decimal (d : Char) (ds : List Char) (hzero : d ≠ '0') (hdigits : ∀ c ∈ d :: ds, isDigit 10 c) :
      Constant (d :: ds) (Nat.ofDigits 10 ((d :: ds).reverse.map digit))
  | octal (ds : List Char) (hdigits : ∀ c ∈ ds, isDigit 8 c) :
      Constant ('0' :: ds) (Nat.ofDigits 8 (ds.reverse.map digit))
  | hex (x d : Char) (ds : List Char) (hx : x = 'x' ∨ x = 'X')
      (hdigits : ∀ c ∈ d :: ds, isDigit 16 c) :
      Constant ('0' :: x :: d :: ds) (Nat.ofDigits 16 ((d :: ds).reverse.map digit))

/-- A text starts with a constant of the given value, and with no longer one. -/
def StartsConstant (text : List Char) (magnitude : ℕ) : Prop :=
  ∃ constant, Constant constant magnitude ∧ constant <+: text ∧
    ∀ other m, Constant other m → other <+: text → other.length ≤ constant.length

/-- A text starts with a constant, behind white space and a sign. -/
def Starts (text : List Char) (negative : Bool) (magnitude : ℕ) : Prop :=
  ∃ spaces sign rest, text = spaces ++ (sign ++ rest) ∧ (∀ c ∈ spaces, isSpace c) ∧
    Sign negative sign ∧ StartsConstant rest magnitude

/-! ### Digits and their values -/

/-- Reading digit by digit is positional notation. -/
theorem value_eq_ofDigits (base : ℕ) (digits : List Char) :
    value base digits = Nat.ofDigits base (digits.reverse.map digit) := by
  rw [Nat.ofDigits_eq_foldr, List.foldr_map, List.foldr_reverse]
  simp [value, valueFrom, Nat.add_comm]

/-- A digit more. -/
theorem valueFrom_cons (base v : ℕ) (c : Char) (digits : List Char) :
    valueFrom base v (c :: digits) = valueFrom base (base * v + digit c) digits := rfl

/-- In base ten the value does not decrease as digits follow. -/
theorem le_valueFrom_ten (v : ℕ) (digits : List Char) : v ≤ valueFrom 10 v digits := by
  induction digits generalizing v with
  | nil => exact le_rfl
  | cons c digits ih =>
    have h := ih (10 * v + digit c)
    rw [valueFrom_cons]
    omega

/-- What is larger by some amount stays so when all digits follow it, and only the octal digits at
their start follow the other. -/
theorem valueFrom_octal_add_le (k : ℕ) {v w : ℕ} (hle : v + k ≤ w) (digits : List Char) :
    valueFrom 8 v (digits.takeWhile (isDigit 8)) + k ≤ valueFrom 10 w digits := by
  induction digits generalizing v w with
  | nil => exact hle
  | cons c digits ih =>
    rw [valueFrom_cons]
    by_cases hoctal : isDigit 8 c
    · rw [List.takeWhile_cons_of_pos hoctal, valueFrom_cons]
      exact ih (by omega)
    · rw [List.takeWhile_cons_of_neg hoctal]
      have h := le_valueFrom_ten (10 * w + digit c) digits
      change v + k ≤ _
      omega

/-- The octal digits at the start of a run of digits have no larger value than the run has in base
ten. -/
theorem value_octal_le (digits : List Char) :
    value 8 (digits.takeWhile (isDigit 8)) ≤ value 10 digits :=
  valueFrom_octal_add_le 0 le_rfl digits

/-- **Octal digits have their decimal value only below eight.** The octal digits at the start of
a run of digits have the value that the whole run has in base ten exactly when that is a number of
one octal digit. -/
theorem value_octal_eq_decimal_iff (digits : List Char) :
    value 8 (digits.takeWhile (isDigit 8)) = value 10 digits ↔ value 10 digits < 8 := by
  induction digits with
  | nil => simp [value, valueFrom]
  | cons c digits ih =>
    unfold value at ih ⊢
    rw [valueFrom_cons]
    by_cases hoctal : isDigit 8 c
    · rw [List.takeWhile_cons_of_pos hoctal, valueFrom_cons]
      simp only [mul_zero, zero_add]
      rcases Nat.eq_zero_or_pos (digit c) with hzero | hpos
      · rw [hzero]
        exact ih
      · cases digits with
        | nil => simpa [valueFrom, isDigit] using hoctal
        | cons d digits =>
          -- a second digit makes the decimal value larger for good
          have hlarge := le_valueFrom_ten (10 * digit c + digit d) digits
          have hlt : valueFrom 8 (digit c) ((d :: digits).takeWhile (isDigit 8)) <
              valueFrom 10 (digit c) (d :: digits) := by
            by_cases hnext : isDigit 8 d
            · rw [List.takeWhile_cons_of_pos hnext, valueFrom_cons, valueFrom_cons]
              exact valueFrom_octal_add_le 1 (by omega) digits
            · rw [List.takeWhile_cons_of_neg hnext, valueFrom_cons]
              change digit c < _
              omega
          rw [valueFrom_cons] at hlt ⊢
          omega
    · rw [List.takeWhile_cons_of_neg hoctal]
      have hlarge := le_valueFrom_ten (10 * 0 + digit c) digits
      simp only [isDigit, decide_eq_true_eq] at hoctal
      change 0 = _ ↔ _
      omega

/-! ### The constant at the start of a text -/

/-- The three ways in which a text selects a base. -/
inductive Selects : List Char → ℕ → List Char → Prop
  | hex (x d : Char) (rest : List Char) (hx : x = 'x' ∨ x = 'X') (hd : isDigit 16 d) :
      Selects ('0' :: x :: d :: rest) 16 (d :: rest)
  | octal (rest : List Char)
      (hhex : ∀ x d more, rest = x :: d :: more → ¬((x = 'x' ∨ x = 'X') ∧ isDigit 16 d)) :
      Selects ('0' :: rest) 8 ('0' :: rest)
  | decimal (text : List Char) (hzero : ∀ rest, text ≠ '0' :: rest) : Selects text 10 text

/-- Every text selects a base in one of these ways. -/
theorem select_spec (text : List Char) : Selects text (select text).1 (select text).2 := by
  rw [select.eq_def]
  split
  · next x d rest =>
    by_cases hhex : (x = 'x' ∨ x = 'X') ∧ isDigit 16 d
    · rw [if_pos hhex]
      exact .hex x d rest hhex.1 hhex.2
    · rw [if_neg hhex]
      refine .octal _ fun x' d' more heq => ?_
      obtain ⟨rfl, rfl, rfl⟩ : x = x' ∧ d = d' ∧ rest = more := by simpa using heq
      exact hhex
  · next rest hshort => exact .octal rest fun x d more heq => (hshort x d more heq).elim
  · next hlong hzero => exact .decimal text hzero

/-- A run of digits at the start of a text is no longer than the longest. -/
theorem length_le_takeWhile {base : ℕ} {digits text : List Char}
    (hdigits : ∀ c ∈ digits, isDigit base c) (hfront : digits <+: text) :
    digits.length ≤ (text.takeWhile (isDigit base)).length := by
  obtain ⟨rest, rfl⟩ := hfront
  rw [List.takeWhile_append_of_pos hdigits, List.length_append]
  exact Nat.le_add_right _ _

/-- No letter of a hexadecimal prefix is an octal digit. -/
theorem not_octal_of_hex {x : Char} (hx : x = 'x' ∨ x = 'X') : ¬isDigit 8 x := by
  rcases hx with rfl | rfl <;> decide

/-- Characters make up at most one constant. -/
theorem Constant.unique {constant : List Char} {m n : ℕ} (hm : Constant constant m)
    (hn : Constant constant n) : m = n := by
  cases hm with
  | decimal d ds hzero hdigits =>
    cases hn with
    | decimal => rfl
    | octal | hex => exact absurd rfl hzero
  | octal ds hdigits =>
    cases hn with
    | decimal _ _ hzero => exact absurd rfl hzero
    | octal => rfl
    | hex x d ds hx => exact absurd (hdigits x List.mem_cons_self) (not_octal_of_hex hx)
  | hex x d ds hx hdigits =>
    cases hn with
    | decimal _ _ hzero => exact absurd rfl hzero
    | octal _ hdigits => exact absurd (hdigits x List.mem_cons_self) (not_octal_of_hex hx)
    | hex => rfl

/-- Two longest constants at the start of a text are one. -/
theorem StartsConstant.unique {text : List Char} {m n : ℕ} (hm : StartsConstant text m)
    (hn : StartsConstant text n) : m = n := by
  obtain ⟨a, ha, haprefix, halong⟩ := hm
  obtain ⟨b, hb, hbprefix, hblong⟩ := hn
  have hlength : a.length = b.length :=
    le_antisymm (hblong a m ha haprefix) (halong b n hb hbprefix)
  obtain rfl : a = b :=
    (List.prefix_of_prefix_length_le haprefix hbprefix hlength.le).eq_of_length hlength
  exact ha.unique hb

/-- The digits that follow the prefix make up the longest constant. -/
theorem Selects.starts {text rest : List Char} {base : ℕ} (h : Selects text base rest)
    (hrun : rest.takeWhile (isDigit base) ≠ []) :
    StartsConstant text (value base (rest.takeWhile (isDigit base))) := by
  have hdigits : ∀ c ∈ rest.takeWhile (isDigit base), isDigit base c :=
    fun c hc => List.mem_takeWhile_imp hc
  rw [value_eq_ofDigits]
  cases h with
  | hex x d rest hx hd =>
    rw [List.takeWhile_cons_of_pos hd] at hdigits ⊢
    refine ⟨_, .hex x d _ hx hdigits, by simp [List.takeWhile_prefix], ?_⟩
    intro other m hother hfront
    cases hother with
    | decimal e es hzero => exact absurd (List.cons_prefix_cons.mp hfront).1 hzero
    | octal es hoctal =>
      cases es with
      | nil => simp
      | cons e es =>
        obtain ⟨-, hnext⟩ := List.cons_prefix_cons.mp hfront
        obtain ⟨rfl, -⟩ := List.cons_prefix_cons.mp hnext
        exact absurd (hoctal e List.mem_cons_self) (not_octal_of_hex hx)
    | hex y e es hy hes =>
      obtain ⟨-, hnext⟩ := List.cons_prefix_cons.mp hfront
      obtain ⟨-, hrest⟩ := List.cons_prefix_cons.mp hnext
      have hle := length_le_takeWhile hes hrest
      rw [List.takeWhile_cons_of_pos hd] at hle
      simpa using hle
  | octal rest hhex =>
    have hzero : isDigit 8 '0' := by decide
    rw [List.takeWhile_cons_of_pos hzero] at hdigits ⊢
    have hvalue : Nat.ofDigits 8 (('0' :: rest.takeWhile (isDigit 8)).reverse.map digit) =
        Nat.ofDigits 8 ((rest.takeWhile (isDigit 8)).reverse.map digit) := by
      rw [← value_eq_ofDigits, ← value_eq_ofDigits]
      rfl
    rw [hvalue]
    refine ⟨_, .octal _ fun c hc => hdigits c (List.mem_cons_of_mem _ hc),
      by simp [List.takeWhile_prefix], ?_⟩
    intro other m hother hfront
    cases hother with
    | decimal e es hzero => exact absurd (List.cons_prefix_cons.mp hfront).1 hzero
    | octal es hes =>
      have hle := length_le_takeWhile hes (List.cons_prefix_cons.mp hfront).2
      simpa using hle
    | hex y e es hy hes =>
      obtain ⟨more, hmore⟩ := (List.cons_prefix_cons.mp hfront).2
      exact absurd ⟨hy, hes e List.mem_cons_self⟩ (hhex y e (es ++ more) hmore.symm)
  | decimal _ hzero =>
    obtain ⟨d, ds, hcons⟩ := List.exists_cons_of_ne_nil hrun
    have hfront : d :: ds <+: text := hcons ▸ List.takeWhile_prefix _
    have hd : d ≠ '0' := by
      rintro rfl
      obtain ⟨more, hmore⟩ := hfront
      exact hzero _ hmore.symm
    refine ⟨d :: ds, ?_, hfront, ?_⟩
    · rw [hcons] at hdigits ⊢
      exact .decimal d ds hd hdigits
    · intro other m hother hother_prefix
      obtain ⟨more, rfl⟩ := hother_prefix
      cases hother with
      | decimal e es _ hes =>
        have hle := length_le_takeWhile hes (List.prefix_append (e :: es) more)
        rwa [hcons] at hle
      | octal | hex => exact absurd rfl (hzero _)

/-- Where a constant stands, there are such digits. -/
theorem Selects.run_ne_nil {text rest constant : List Char} {base m : ℕ}
    (h : Selects text base rest) (hconstant : Constant constant m) (hfront : constant <+: text) :
    rest.takeWhile (isDigit base) ≠ [] := by
  cases h with
  | hex x d rest hx hd =>
    rw [List.takeWhile_cons_of_pos hd]
    exact List.cons_ne_nil _ _
  | octal rest hhex =>
    have hzero : isDigit 8 '0' := by decide
    rw [List.takeWhile_cons_of_pos hzero]
    exact List.cons_ne_nil _ _
  | decimal _ hzero =>
    obtain ⟨more, rfl⟩ := hfront
    cases hconstant with
    | decimal d ds _ hdigits =>
      rw [List.cons_append, List.takeWhile_cons_of_pos (hdigits d List.mem_cons_self)]
      exact List.cons_ne_nil _ _
    | octal | hex => exact absurd rfl (hzero _)

/-- **The scan reads the longest constant at the start of a text**, and fails where there is
none. -/
theorem scanConstant_eq_some_iff (text : List Char) (magnitude : ℕ) :
    scanConstant text = some magnitude ↔ StartsConstant text magnitude := by
  have hselects := select_spec text
  rw [scanConstant]
  revert hselects
  generalize select text = selected
  obtain ⟨base, rest⟩ := selected
  intro hselects
  simp only at hselects ⊢
  by_cases hrun : rest.takeWhile (isDigit base) = []
  · rw [if_pos (List.isEmpty_iff.mpr hrun)]
    refine iff_of_false (by simp) ?_
    rintro ⟨constant, hconstant, hfront, -⟩
    exact hselects.run_ne_nil hconstant hfront hrun
  · rw [if_neg (by simpa using hrun), Option.some.injEq]
    have hstarts := hselects.starts hrun
    constructor
    · rintro rfl
      exact hstarts
    · exact hstarts.unique

/-- The decimal digits are the usual ones. -/
theorem isDigit_of_decimal {c : Char} (hc : isDigit 10 c) : c.isDigit := by
  by_contra hnot
  have hlarge : ¬('0' ≤ c ∧ c ≤ '9') := by
    rintro ⟨hlow, hhigh⟩
    refine hnot ?_
    rw [Char.isDigit, Bool.and_eq_true, decide_eq_true_eq, decide_eq_true_eq]
    exact ⟨hlow, hhigh⟩
  rw [isDigit, digit, if_neg hlarge, decide_eq_true_eq] at hc
  split_ifs at hc
  · omega
  · omega
  · omega

/-- Every constant starts with a decimal digit. -/
theorem StartsConstant.cons_digit {text : List Char} {magnitude : ℕ}
    (h : StartsConstant text magnitude) : ∃ d rest, text = d :: rest ∧ d.isDigit := by
  obtain ⟨constant, hconstant, ⟨rest, rfl⟩, -⟩ := h
  cases hconstant with
  | decimal d ds _ hdigits =>
    exact ⟨d, ds ++ rest, rfl, isDigit_of_decimal (hdigits d List.mem_cons_self)⟩
  | octal ds => exact ⟨'0', ds ++ rest, rfl, by decide⟩
  | hex x d ds => exact ⟨'0', x :: d :: ds ++ rest, rfl, by decide⟩

/-- **The scan reads the constant behind white space and a sign**, and fails where there is
none. -/
theorem scan_eq_some_iff (text : List Char) (negative : Bool) (magnitude : ℕ) :
    scan text = some (negative, magnitude) ↔ Starts text negative magnitude := by
  constructor
  · intro hscan
    obtain ⟨sign, hsign, htext⟩ := Numeral.takeSign_spec (text.dropWhile isSpace)
    rw [scan] at hscan
    revert hscan hsign htext
    generalize takeSign (text.dropWhile isSpace) = signed
    obtain ⟨negative', rest⟩ := signed
    intro hscan hsign htext
    obtain ⟨magnitude', hconstant, heq⟩ := Option.map_eq_some_iff.mp hscan
    obtain ⟨rfl, rfl⟩ := Prod.mk.inj heq
    refine ⟨text.takeWhile isSpace, sign, rest, ?_, ?_, hsign,
      (scanConstant_eq_some_iff _ _).mp hconstant⟩
    · rw [← htext, List.takeWhile_append_dropWhile]
    · exact fun c hc => List.mem_takeWhile_imp hc
  · rintro ⟨spaces, sign, rest, rfl, hspaces, hsign, hstarts⟩
    obtain ⟨d, more, rfl, hd⟩ := hstarts.cons_digit
    rw [scan, Numeral.dropWhile_spaces hspaces hsign hd, Numeral.takeSign_append hsign hd]
    simp only [(scanConstant_eq_some_iff _ _).mpr hstarts, Option.map_some]

/-- A run of decimal digits has neither white space nor a sign before it. -/
theorem scan_of_digits {text : List Char} (hne : text ≠ []) (hdigits : ∀ c ∈ text, isDigit 10 c) :
    scan text = (scanConstant text).map (false, ·) := by
  obtain ⟨d, ds, rfl⟩ := List.exists_cons_of_ne_nil hne
  have hd := isDigit_of_decimal (hdigits d List.mem_cons_self)
  have hspaces := @Numeral.dropWhile_spaces [] (by simp) _ _ .none _ hd ds
  have hsign := Numeral.takeSign_append .none hd ds
  simp only [List.nil_append] at hspaces hsign
  rw [scan, hspaces, hsign]

/-- It is read as it stands, unless it starts with a zero. -/
theorem scan_decimal {text : List Char} (hne : text ≠ []) (hdigits : ∀ c ∈ text, isDigit 10 c)
    (hzero : text.head? ≠ some '0') : scan text = some (false, value 10 text) := by
  have hselects := select_spec text
  rw [scan_of_digits hne hdigits, scanConstant]
  revert hselects
  generalize select text = selected
  obtain ⟨base, rest⟩ := selected
  intro hselects
  cases hselects with
  | hex | octal => exact absurd rfl hzero
  | decimal =>
    have hrun := List.takeWhile_eq_self_iff.mpr hdigits
    simp only [hrun, List.isEmpty_iff, hne, if_false, Option.map_some]

/-- With a zero it is read as octal, up to the first digit that is not. -/
theorem scan_octal {text : List Char} (hdigits : ∀ c ∈ text, isDigit 10 c)
    (hzero : text.head? = some '0') :
    scan text = some (false, value 8 (text.takeWhile (isDigit 8))) := by
  obtain ⟨ds, rfl⟩ := List.head?_eq_some_iff.mp hzero
  have hselects := select_spec ('0' :: ds)
  rw [scan_of_digits (List.cons_ne_nil _ _) hdigits, scanConstant]
  revert hselects
  generalize select ('0' :: ds) = selected
  obtain ⟨base, rest⟩ := selected
  intro hselects
  cases hselects with
  | hex x d more hx =>
    have hdecimal := hdigits x (List.mem_cons_of_mem _ List.mem_cons_self)
    rcases hx with rfl | rfl
    · exact absurd hdecimal (by decide)
    · exact absurd hdecimal (by decide)
  | octal =>
    have hdigit : isDigit 8 '0' := by decide
    simp only [List.takeWhile_cons_of_pos hdigit, List.isEmpty_cons, Bool.false_eq_true, if_false,
      Option.map_some]
  | decimal _ hnot => exact absurd rfl (hnot ds)

/-! ### Separators -/

/-- A text cut at the last of its separators. -/
def splitLast {α : Type*} [DecidableEq α] (separator : α) : List α → Option (List α × List α)
  | [] => none
  | c :: rest =>
    match splitLast separator rest with
    | some (before, after) => some (c :: before, after)
    | none => if c = separator then some ([], rest) else none

/-- A text without the separator is not cut. -/
theorem splitLast_eq_none_iff {α : Type*} [DecidableEq α] {separator : α} {text : List α} :
    splitLast separator text = none ↔ separator ∉ text := by
  induction text with
  | nil => simp [splitLast]
  | cons c rest ih =>
    rw [splitLast]
    cases hrest : splitLast separator rest with
    | some split =>
      have hmem : separator ∈ rest := by
        by_contra hnot
        rw [ih.mpr hnot] at hrest
        cases hrest
      simp [hmem]
    | none =>
      have hnot := ih.mp hrest
      by_cases hc : c = separator
      · simp [hc]
      · simp [hc, hnot, Ne.symm hc]

/-- **Cutting is the inverse of joining**, where the second part is free of separators. -/
theorem splitLast_eq_some_iff {α : Type*} [DecidableEq α] {separator : α}
    {text before after : List α} :
    splitLast separator text = some (before, after) ↔
      text = before ++ separator :: after ∧ separator ∉ after := by
  constructor
  · intro hsplit
    induction text generalizing before with
    | nil => cases hsplit
    | cons c rest ih =>
      rw [splitLast] at hsplit
      cases hrest : splitLast separator rest with
      | some split =>
        rw [hrest] at hsplit
        obtain ⟨rfl, rfl⟩ := Prod.mk.inj (Option.some.inj hsplit)
        obtain ⟨htext, hafter⟩ := ih hrest
        exact ⟨by rw [htext, List.cons_append], hafter⟩
      | none =>
        rw [hrest] at hsplit
        obtain ⟨rfl, hsplit'⟩ := Option.ite_none_right_eq_some.mp hsplit
        obtain ⟨rfl, rfl⟩ := Prod.mk.inj (Option.some.inj hsplit')
        exact ⟨rfl, splitLast_eq_none_iff.mp hrest⟩
  · rintro ⟨rfl, hafter⟩
    induction before with
    | nil => rw [List.nil_append, splitLast, splitLast_eq_none_iff.mpr hafter, if_pos rfl]
    | cons c before ih => rw [List.cons_append, splitLast, ih]

end Text

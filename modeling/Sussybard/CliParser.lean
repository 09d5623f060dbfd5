import Sussybard.General.Numeral

/-!
# The command line parser

`CLIParser` walks over the arguments with one cursor that the loop of `parse`
shares with the callbacks it calls. A callback is modelled by what it does to
the parser: the order of its calls to `next_uint`, `next_int`, `next_double`,
`next_string` and `end`, each of which may depend on what the calls before it
gave back or threw.
-/

namespace Sussybard

open Numeral

/-- The width of `long`. -/
inductive LongWidth where
  /-- As on Windows. -/
  | bits32
  /-- As on 64-bit Linux. -/
  | bits64
  deriving DecidableEq, Repr

/-- The number of bits of `long`. -/
def LongWidth.bits : LongWidth → ℕ
  | .bits32 => 32
  | .bits64 => 64

/-- What the parser uses of its platform: `std::stol` and `std::stoul` follow from the width
of `long`, `std::stod` is left open. -/
structure Platform (δ : Type*) where
  /-- The width of `long`. -/
  long : LongWidth
  /-- `std::stod` -/
  stod : String → Except ConversionError δ

/-- `std::stol` -/
def LongWidth.stol (long : LongWidth) (text : String) : Except ConversionError ℤ :=
  signedWord long.bits text.toList

/-- `std::stoul` -/
def LongWidth.stoul (long : LongWidth) (text : String) : Except ConversionError ℕ :=
  unsignedWord long.bits text.toList

/-- The exceptions that reach `parse`. -/
inductive CliError where
  /-- `"Tried to parse <kind>, but nothing left in arguments"` -/
  | nothingLeft (kind : String)
  /-- Thrown by the library function of that name. -/
  | conversion (function : String) (error : ConversionError)
  /-- `"<function>() out of range"` -/
  | outOfRange (function : String)
  /-- `"Invalid argument"` -/
  | invalidArgument
  /-- A call of an empty `std::function`. -/
  | badFunctionCall
  /-- Thrown by a callback on its own account. -/
  | thrown (what : String)
  deriving DecidableEq, Repr

/-- `e.what()`, for the library's own exceptions as libstdc++ words it. -/
def CliError.what : CliError → String
  | .nothingLeft kind => "Tried to parse " ++ kind ++ ", but nothing left in arguments"
  | .conversion function _ => function
  | .outOfRange function => function ++ "() out of range"
  | .invalidArgument => "Invalid argument"
  | .badFunctionCall => "bad_function_call"
  | .thrown what => what

/-- The parser without its callbacks: the arguments from the cursor on, and its flags. -/
structure CLIParser where
  /-- `argv[0..argc)`, which `argc--` and `argv++` shorten together. -/
  args : List String
  /-- `ended_state` -/
  endedState : Bool
  /-- `unknown_argument_is_default` -/
  unknownArgumentIsDefault : Bool
  deriving DecidableEq, Repr

/-- The parser as its constructor leaves it. -/
def CLIParser.new (args : List String) : CLIParser := ⟨args, false, false⟩

/-- `CLIParser::ignore_unknown_arguments` -/
def CLIParser.ignoreUnknownArguments (p : CLIParser) : CLIParser :=
  { p with unknownArgumentIsDefault := true }

/-- `CLIParser::end` -/
def CLIParser.end_ (p : CLIParser) : CLIParser := { p with endedState := true }

/-- `CLIParser::next_uint`: what it returns or throws, and the parser after. -/
def CLIParser.nextUint (long : LongWidth) (p : CLIParser) : Except CliError UInt32 × CLIParser :=
  match p.args with
  | [] => (.error (.nothingLeft "uint"), p)
  | arg :: rest =>
    match long.stoul arg with
    | .error e => (.error (.conversion "stoul" e), p)
    | .ok val =>
      if val > 0xffffffff then (.error (.outOfRange "next_uint"), p)
      else (.ok (UInt32.ofNat val), { p with args := rest })

/-- `CLIParser::next_int` -/
def CLIParser.nextInt (long : LongWidth) (p : CLIParser) : Except CliError Int32 × CLIParser :=
  match p.args with
  | [] => (.error (.nothingLeft "int"), p)
  | arg :: rest =>
    match long.stol arg with
    | .error e => (.error (.conversion "stol" e), p)
    | .ok val =>
      if val > 0x7fffffff ∨ val < -0x80000000 then (.error (.outOfRange "next_int"), p)
      else (.ok (Int32.ofInt val), { p with args := rest })

/-- `CLIParser::next_double` -/
def CLIParser.nextDouble {δ : Type*} (platform : Platform δ) (p : CLIParser) :
    Except CliError δ × CLIParser :=
  match p.args with
  | [] => (.error (.nothingLeft "double"), p)
  | arg :: rest =>
    match platform.stod arg with
    | .error e => (.error (.conversion "stod" e), p)
    | .ok val => (.ok val, { p with args := rest })

/-- `CLIParser::next_string` -/
def CLIParser.nextString (p : CLIParser) : Except CliError String × CLIParser :=
  match p.args with
  | [] => (.error (.nothingLeft "string"), p)
  | arg :: rest => (.ok arg, { p with args := rest })

/-- What a callback does: `σ` is what it has access to besides the parser. A callback that
does not catch what a call throws throws it on. -/
inductive CLICallback (δ σ : Type*) where
  | returns (state : σ)
  | throws (error : CliError) (state : σ)
  | nextUint (k : Except CliError UInt32 → CLICallback δ σ)
  | nextInt (k : Except CliError Int32 → CLICallback δ σ)
  | nextDouble (k : Except CliError δ → CLICallback δ σ)
  | nextString (k : Except CliError String → CLICallback δ σ)
  | end_ (k : CLICallback δ σ)

/-- `Util::CLICallbacks` -/
structure CLICallbacks (δ σ : Type*) where
  /-- `callbacks`, as the look-up that `find` makes. -/
  callbacks : String → Option (σ → CLICallback δ σ)
  /-- `error_handler` -/
  errorHandler : Option (σ → σ)
  /-- `default_handler` -/
  defaultHandler : Option (String → σ → σ)

/-- How a call from the loop ends. -/
structure Called (σ : Type*) where
  /-- What it throws, if it does. -/
  error : Option CliError
  /-- The state after. -/
  state : σ
  /-- The parser after. -/
  parser : CLIParser

/-- How `parse` ends. -/
structure Parsed (σ : Type*) where
  /-- What it returns. -/
  returned : Bool
  /-- What it prints to `stderr`. -/
  stderr : String
  /-- The state after. -/
  state : σ
  /-- The parser after. -/
  parser : CLIParser

section

variable {δ σ : Type*} (platform : Platform δ)

/-- A callback run on a parser. -/
def CLICallback.run : CLICallback δ σ → CLIParser → Called σ
  | .returns state, p => ⟨none, state, p⟩
  | .throws error state, p => ⟨some error, state, p⟩
  | .nextUint k, p => (k (p.nextUint platform.long).1).run (p.nextUint platform.long).2
  | .nextInt k, p => (k (p.nextInt platform.long).1).run (p.nextInt platform.long).2
  | .nextDouble k, p => (k (p.nextDouble platform).1).run (p.nextDouble platform).2
  | .nextString k, p => (k p.nextString.1).run p.nextString.2
  | .end_ k, p => k.run p.end_

/-- `*next == '-'` -/
def startsWithDash (arg : String) : Bool := arg.toList.head? == some '-'

/-- The body of the loop of `parse` once `next` is off the cursor. -/
def CLIParser.dispatch (cbs : CLICallbacks δ σ) (p : CLIParser) (next : String) (state : σ) :
    Called σ :=
  match startsWithDash next, cbs.defaultHandler with
  | false, some handler => ⟨none, handler next state, p⟩
  | _, _ =>
    match cbs.callbacks next with
    | none =>
      if p.unknownArgumentIsDefault then
        match cbs.defaultHandler with
        | some handler => ⟨none, handler next state, p⟩
        | none => ⟨some .badFunctionCall, state, p⟩
      else ⟨some .invalidArgument, state, p⟩
    | some callback => (callback state).run platform p

/-- Reading a number or a string takes at most one argument. -/
theorem CLIParser.next_suffix (p : CLIParser) :
    (p.nextUint platform.long).2.args <:+ p.args ∧ (p.nextInt platform.long).2.args <:+ p.args ∧
      (p.nextDouble platform).2.args <:+ p.args ∧ p.nextString.2.args <:+ p.args := by
  obtain ⟨args, ended, unknown⟩ := p
  cases args with
  | nil => exact ⟨List.suffix_rfl, List.suffix_rfl, List.suffix_rfl, List.suffix_rfl⟩
  | cons arg rest =>
    have htail : rest <:+ arg :: rest := List.suffix_cons _ _
    refine ⟨?_, ?_, ?_, htail⟩
    · simp only [nextUint]
      split
      · exact List.suffix_rfl
      · split
        · exact List.suffix_rfl
        · exact htail
    · simp only [nextInt]
      split
      · exact List.suffix_rfl
      · split
        · exact List.suffix_rfl
        · exact htail
    · simp only [nextDouble]
      split
      · exact List.suffix_rfl
      · exact htail

/-- A callback takes its arguments from the cursor. -/
theorem CLICallback.run_suffix (callback : CLICallback δ σ) (p : CLIParser) :
    (callback.run platform p).parser.args <:+ p.args := by
  induction callback generalizing p with
  | returns state => exact List.suffix_rfl
  | throws error state => exact List.suffix_rfl
  | nextUint k ih => exact (ih _ _).trans (p.next_suffix platform).1
  | nextInt k ih => exact (ih _ _).trans (p.next_suffix platform).2.1
  | nextDouble k ih => exact (ih _ _).trans (p.next_suffix platform).2.2.1
  | nextString k ih => exact (ih _ _).trans (p.next_suffix platform).2.2.2
  | end_ k ih => exact ih p.end_

/-- So does the body of the loop. -/
theorem CLIParser.dispatch_suffix (cbs : CLICallbacks δ σ) (p : CLIParser) (next : String)
    (state : σ) : (p.dispatch platform cbs next state).parser.args <:+ p.args := by
  rw [dispatch.eq_def]
  split
  · exact List.suffix_rfl
  · split
    · split
      · split <;> exact List.suffix_rfl
      · exact List.suffix_rfl
    · exact CLICallback.run_suffix platform _ p

/-- `CLIParser::parse` -/
def CLIParser.parse (cbs : CLICallbacks δ σ) (p : CLIParser) (state : σ) : Parsed σ :=
  match _hargs : p.args with
  | [] => ⟨true, "", state, p⟩
  | next :: rest =>
    if p.endedState then ⟨true, "", state, p⟩
    else
      let called := CLIParser.dispatch platform cbs { p with args := rest } next state
      match called.error with
      | none => called.parser.parse cbs called.state
      | some e =>
        let state' := match cbs.errorHandler with
          | some handler => handler called.state
          | none => called.state
        ⟨false, "Failed to parse arguments: " ++ e.what ++ "\n", state', called.parser⟩
termination_by p.args.length
decreasing_by
  have hle := (CLIParser.dispatch_suffix platform cbs { p with args := rest } next state).length_le
  simp only [_hargs, List.length_cons]
  exact Nat.lt_succ_of_le hle

/-- The loop is over when no argument is left. -/
theorem parse_nil (cbs : CLICallbacks δ σ) {p : CLIParser} (hargs : p.args = []) (state : σ) :
    p.parse platform cbs state = ⟨true, "", state, p⟩ := by
  obtain ⟨args, ended, unknown⟩ := p
  simp only at hargs
  subst hargs
  rw [CLIParser.parse]

/-- The loop is over when a callback has ended the parsing. -/
theorem parse_of_ended (cbs : CLICallbacks δ σ) {p : CLIParser} (hended : p.endedState = true)
    (state : σ) : p.parse platform cbs state = ⟨true, "", state, p⟩ := by
  obtain ⟨args, ended, unknown⟩ := p
  simp only at hended
  subst hended
  rw [CLIParser.parse.eq_def]
  cases args <;> rfl

/-- A round of the loop that throws nothing. -/
theorem parse_cons_of_returns (cbs : CLICallbacks δ σ) {p p' : CLIParser} {next : String}
    {rest : List String} (hargs : p.args = next :: rest) (hended : p.endedState = false)
    {state state' : σ}
    (hcalled : CLIParser.dispatch platform cbs { p with args := rest } next state =
      ⟨none, state', p'⟩) :
    p.parse platform cbs state = p'.parse platform cbs state' := by
  obtain ⟨args, ended, unknown⟩ := p
  simp only at hargs hended
  subst hargs hended
  conv_lhs => rw [CLIParser.parse.eq_def]
  simp only [Bool.false_eq_true, if_false, hcalled]

/-- A round of the loop that throws. -/
theorem parse_cons_of_throws (cbs : CLICallbacks δ σ) {p : CLIParser} {next : String}
    {rest : List String} (hargs : p.args = next :: rest) (hended : p.endedState = false)
    {state : σ} {e : CliError}
    (hcalled : (CLIParser.dispatch platform cbs { p with args := rest } next state).error =
      some e) :
    (p.parse platform cbs state).returned = false := by
  obtain ⟨args, ended, unknown⟩ := p
  simp only at hargs hended
  subst hargs hended
  rw [CLIParser.parse.eq_def]
  simp only [Bool.false_eq_true, if_false, hcalled]

end

end Sussybard

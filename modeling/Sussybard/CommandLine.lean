import Sussybard.Numbers
import Sussybard.MainLoop

/-!
# The command line of `main`

`main` registers a callback for each of its options and parses its arguments
with them. What the parser accepts is a grammar: a sequence of groups, each an
option with the arguments it takes. The groups' assignments, applied from left
to right to the defaults, give the `Arguments` that `main` runs with.
-/

namespace Sussybard

open Numeral

section Callbacks

variable {δ σ : Type*}

/-- `CLICallbacks` as it is default-constructed. -/
def CLICallbacks.empty : CLICallbacks δ σ := ⟨fun _ => none, none, none⟩

/-- `CLICallbacks::add` -/
def CLICallbacks.add (cbs : CLICallbacks δ σ) (cli : String) (func : σ → CLICallback δ σ) :
    CLICallbacks δ σ :=
  { cbs with callbacks := Function.update cbs.callbacks cli (some func) }

/-- The callback of an option that takes a string. -/
def takesString (assign : String → Arguments → Arguments) (args : Arguments) :
    CLICallback δ Arguments :=
  .nextString fun
    | .ok v => .returns (assign v args)
    | .error e => .throws e args

/-- The callback of an option that takes an integer. -/
def takesInt (assign : Int32 → Arguments → Arguments) (args : Arguments) :
    CLICallback δ Arguments :=
  .nextInt fun
    | .ok v => .returns (assign v args)
    | .error e => .throws e args

/-- The callbacks that `main` registers, on its `args`. -/
def mainCallbacks (δ : Type*) : CLICallbacks δ Arguments :=
  CLICallbacks.empty
    |>.add "--midi-source" (takesString fun v args => { args with client := v })
    |>.add "--udp-source" (takesString fun v args => { args with client := v, udpSource := true })
    |>.add "--key-sink" (fun args => .returns { args with keySink := true })
    |>.add "--udp-sink" (takesString fun v args => { args with udpSink := v })
    |>.add "--midi-transpose" (takesInt fun v args => { args with midiTranspose := v })
    |>.add "--synth-transpose" (takesInt fun v args => { args with synthTranspose := v })
    |>.add "--base-key" (takesInt fun v args => { args with baseKey := v })
    |>.add "--active-octaves" (takesInt fun v args => { args with numActiveOctaves := v })
    |>.add "--base-key-udp" (takesInt fun v args => { args with baseKeyUdp := v })
    |>.add "--active-octaves-udp" (takesInt fun v args => { args with numActiveOctavesUdp := v })
    |>.add "--synth-transpose-udp" (takesInt fun v args => { args with synthTransposeUdp := v })
    |>.add "--help" (fun args => .end_ (.returns args))

end Callbacks

/-- `Arguments` after both octave counts are clamped. -/
def Arguments.clamp (args : Arguments) : Arguments :=
  { args with
    numActiveOctaves := (clampOctaves args.numActiveOctaves).val
    numActiveOctavesUdp := (clampOctaves args.numActiveOctavesUdp).val }

/-- What `main` does once it has parsed its arguments. -/
inductive Startup where
  /-- It prints the help text and returns the exit status. -/
  | exit (status : ℕ)
  /-- It goes on with these arguments. -/
  | run (args : Arguments)
  deriving DecidableEq, Repr

/-- The parsing of `main`, on the arguments after `argv[0]`. -/
def parseMain {δ : Type*} (platform : Platform δ) (argv : List String) : Parsed Arguments :=
  (CLIParser.new argv).parse platform (mainCallbacks δ) {}

/-- The beginning of `main`. -/
def startup {δ : Type*} (platform : Platform δ) (argv : List String) : Startup :=
  let parsed := parseMain platform argv
  if !parsed.returned then .exit 1
  else if parsed.parser.endedState then .exit 0
  else .run parsed.state.clamp

/-! ### The grammar -/

/-- The seven options that take an integer. -/
inductive IntOption where
  | midiTranspose
  | synthTranspose
  | baseKey
  | activeOctaves
  | baseKeyUdp
  | activeOctavesUdp
  | synthTransposeUdp
  deriving DecidableEq, Repr

/-- The spelling of an integer option. -/
def IntOption.name : IntOption → String
  | .midiTranspose => "--midi-transpose"
  | .synthTranspose => "--synth-transpose"
  | .baseKey => "--base-key"
  | .activeOctaves => "--active-octaves"
  | .baseKeyUdp => "--base-key-udp"
  | .activeOctavesUdp => "--active-octaves-udp"
  | .synthTransposeUdp => "--synth-transpose-udp"

/-- The field that an integer option sets. -/
def IntOption.assign : IntOption → Int32 → Arguments → Arguments
  | .midiTranspose, v, args => { args with midiTranspose := v }
  | .synthTranspose, v, args => { args with synthTranspose := v }
  | .baseKey, v, args => { args with baseKey := v }
  | .activeOctaves, v, args => { args with numActiveOctaves := v }
  | .baseKeyUdp, v, args => { args with baseKeyUdp := v }
  | .activeOctavesUdp, v, args => { args with numActiveOctavesUdp := v }
  | .synthTransposeUdp, v, args => { args with synthTransposeUdp := v }

/-- An option with the argument it takes. The argument of an integer option starts with a
numeral that denotes an `int`. -/
inductive OptionGroup where
  | keySink
  | midiSource (arg : String)
  | udpSource (arg : String)
  | udpSink (arg : String)
  | int (option : IntOption) (arg : String) (v : Int32) (hreads : Denotes arg.toList v.toInt)

/-- The arguments that make up a group. -/
def OptionGroup.words : OptionGroup → List String
  | .keySink => ["--key-sink"]
  | .midiSource arg => ["--midi-source", arg]
  | .udpSource arg => ["--udp-source", arg]
  | .udpSink arg => ["--udp-sink", arg]
  | .int option arg _ _ => [option.name, arg]

/-- What a group assigns. -/
def OptionGroup.assign : OptionGroup → Arguments → Arguments
  | .keySink, args => { args with keySink := true }
  | .midiSource arg, args => { args with client := arg }
  | .udpSource arg, args => { args with client := arg, udpSource := true }
  | .udpSink arg, args => { args with udpSink := arg }
  | .int option _ v _, args => option.assign v args

/-- The assignments of a sequence of groups, from left to right. -/
def assignAll (groups : List OptionGroup) (args : Arguments) : Arguments :=
  groups.foldl (fun args group => group.assign args) args

/-- The argument vector is a concatenation of groups. -/
def Grammatical (argv : List String) : Prop :=
  ∃ groups : List OptionGroup, argv = groups.flatMap OptionGroup.words

/-- The argument vector is a concatenation of groups, then `--help` and then anything. -/
def AsksForHelp (argv : List String) : Prop :=
  ∃ (groups : List OptionGroup) (rest : List String),
    argv = groups.flatMap OptionGroup.words ++ "--help" :: rest

/-! ### Rounds of the loop -/

section Rounds

variable {δ : Type*} (platform : Platform δ)

/-- `main` sets no default handler and takes no unknown argument, so that every argument the
loop reaches is looked up. -/
theorem dispatch_main (rest : List String) (next : String) (args : Arguments) :
    (CLIParser.new rest).dispatch platform (mainCallbacks δ) next args =
      match (mainCallbacks δ).callbacks next with
      | none => ⟨some .invalidArgument, args, .new rest⟩
      | some callback => (callback args).run platform (.new rest) := by
  rw [CLIParser.dispatch.eq_def]
  split
  · next heq => exact absurd heq (by simp [mainCallbacks, CLICallbacks.add, CLICallbacks.empty])
  · cases (mainCallbacks δ).callbacks next <;> rfl

/-- What a table finds after one more callback is added. -/
theorem find_add {σ : Type*} {cbs : CLICallbacks δ σ} {cli next : String}
    {func callback : σ → CLICallback δ σ}
    (hfind : (cbs.add cli func).callbacks next = some callback) :
    (next = cli ∧ callback = func) ∨ cbs.callbacks next = some callback := by
  by_cases hnext : next = cli
  · subst hnext
    simp only [CLICallbacks.add, Function.update_self, Option.some.injEq] at hfind
    exact .inl ⟨rfl, hfind.symm⟩
  · simp only [CLICallbacks.add, Function.update_of_ne hnext] at hfind
    exact .inr hfind

/-- The callbacks that `main` finds, by the groups they belong to. -/
inductive Registered (δ : Type*) : String → (Arguments → CLICallback δ Arguments) → Prop
  | help : Registered δ "--help" fun args => .end_ (.returns args)
  | keySink : Registered δ "--key-sink" fun args => .returns (OptionGroup.keySink.assign args)
  | string {next : String} (group : String → OptionGroup)
      (hwords : ∀ arg, (group arg).words = [next, arg]) :
      Registered δ next (takesString fun v => (group v).assign)
  | int (option : IntOption) : Registered δ option.name (takesInt option.assign)

/-- Every callback that `main` finds is one of these. -/
theorem registered_of_find {next : String} {callback : Arguments → CLICallback δ Arguments}
    (hfind : (mainCallbacks δ).callbacks next = some callback) : Registered δ next callback := by
  rcases find_add hfind with ⟨rfl, rfl⟩ | hfind
  · exact .help
  rcases find_add hfind with ⟨rfl, rfl⟩ | hfind
  · exact .int .synthTransposeUdp
  rcases find_add hfind with ⟨rfl, rfl⟩ | hfind
  · exact .int .activeOctavesUdp
  rcases find_add hfind with ⟨rfl, rfl⟩ | hfind
  · exact .int .baseKeyUdp
  rcases find_add hfind with ⟨rfl, rfl⟩ | hfind
  · exact .int .activeOctaves
  rcases find_add hfind with ⟨rfl, rfl⟩ | hfind
  · exact .int .baseKey
  rcases find_add hfind with ⟨rfl, rfl⟩ | hfind
  · exact .int .synthTranspose
  rcases find_add hfind with ⟨rfl, rfl⟩ | hfind
  · exact .int .midiTranspose
  rcases find_add hfind with ⟨rfl, rfl⟩ | hfind
  · exact .string .udpSink fun _ => rfl
  rcases find_add hfind with ⟨rfl, rfl⟩ | hfind
  · exact .keySink
  rcases find_add hfind with ⟨rfl, rfl⟩ | hfind
  · exact .string .udpSource fun _ => rfl
  rcases find_add hfind with ⟨rfl, rfl⟩ | hfind
  · exact .string .midiSource fun _ => rfl
  cases hfind

/-- The integer options are registered under their spellings. -/
theorem find_int (option : IntOption) :
    (mainCallbacks δ).callbacks option.name = some (takesInt option.assign) := by
  cases option <;> rfl

/-- A callback that takes an integer takes an argument that starts with an `int`. -/
theorem run_takesInt (assign : Int32 → Arguments → Arguments) (args : Arguments)
    {arg : String} {v : Int32} (hreads : Denotes arg.toList v.toInt) (rest : List String) :
    (takesInt assign args).run platform (.new (arg :: rest)) =
      ⟨none, assign v args, .new rest⟩ := by
  simp only [takesInt, CLICallback.run]
  rcases nextInt_cons platform.long (.new (arg :: rest)) rfl with
    ⟨w, hw, -, -, hok⟩ | ⟨hnone, -⟩
  · rw [hok, hw.unique hreads, Int32.ofInt_toInt]
    rfl
  · exact absurd ⟨v.le_toInt, Int.le_sub_one_of_lt v.toInt_lt⟩ (hnone _ hreads)

/-- A callback of `main` that throws nothing completes a group or asks for help. -/
theorem Registered.run_cases {next : String} {callback : Arguments → CLICallback δ Arguments}
    (h : Registered δ next callback) (args : Arguments) (rest : List String) :
    (∃ (group : OptionGroup) (rest' : List String), next :: rest = group.words ++ rest' ∧
      (callback args).run platform (.new rest) = ⟨none, group.assign args, .new rest'⟩) ∨
    (next = "--help" ∧
      (callback args).run platform (.new rest) = ⟨none, args, (CLIParser.new rest).end_⟩) ∨
    ((callback args).run platform (.new rest)).error ≠ none := by
  cases h with
  | help => exact .inr (.inl ⟨rfl, rfl⟩)
  | keySink => exact .inl ⟨.keySink, rest, rfl, rfl⟩
  | string group hwords =>
    cases rest with
    | nil => exact .inr (.inr (by simp [takesString, CLICallback.run, CLIParser.nextString,
        CLIParser.new]))
    | cons arg rest => exact .inl ⟨group arg, rest, by rw [hwords]; rfl, rfl⟩
  | int option =>
    cases rest with
    | nil => exact .inr (.inr (by simp [takesInt, CLICallback.run, CLIParser.nextInt,
        CLIParser.new]))
    | cons arg rest =>
      rcases nextInt_cons platform.long (.new (arg :: rest)) rfl with
        ⟨w, hw, hlow, hhigh, -⟩ | ⟨-, e, herror⟩
      · have htoInt : (Int32.ofInt w).toInt = w := Int32.toInt_ofInt_of_le hlow (by omega)
        have hreads : Denotes arg.toList (Int32.ofInt w).toInt := by rwa [htoInt]
        exact .inl ⟨.int option arg _ hreads, rest, rfl, run_takesInt platform _ args hreads rest⟩
      · refine .inr (.inr ?_)
        simp [takesInt, CLICallback.run, herror]

/-! ### Whole argument vectors -/

/-- A group at the front of the argument vector is one round of the loop. -/
theorem parse_group (group : OptionGroup) (rest : List String) (args : Arguments) :
    (CLIParser.new (group.words ++ rest)).parse platform (mainCallbacks δ) args =
      (CLIParser.new rest).parse platform (mainCallbacks δ) (group.assign args) := by
  have hround : ∀ {next : String} {tail : List String} {callback},
      group.words ++ rest = next :: tail → (mainCallbacks δ).callbacks next = some callback →
      (callback args).run platform (.new tail) = ⟨none, group.assign args, .new rest⟩ →
      (CLIParser.new (group.words ++ rest)).parse platform (mainCallbacks δ) args =
        (CLIParser.new rest).parse platform (mainCallbacks δ) (group.assign args) := by
    intro next tail callback hwords hfind hrun
    refine parse_cons_of_returns platform _ hwords rfl ?_
    have hcalled := dispatch_main platform tail next args
    rw [hfind] at hcalled
    exact hcalled.trans hrun
  cases group with
  | keySink => exact hround rfl rfl rfl
  | midiSource arg => exact hround rfl rfl rfl
  | udpSource arg => exact hround rfl rfl rfl
  | udpSink arg => exact hround rfl rfl rfl
  | int option arg v hreads =>
    exact hround rfl (find_int option) (run_takesInt platform _ args hreads rest)

/-- Groups at the front of the argument vector are rounds of the loop. -/
theorem parse_groups (groups : List OptionGroup) (rest : List String) (args : Arguments) :
    (CLIParser.new (groups.flatMap OptionGroup.words ++ rest)).parse platform (mainCallbacks δ)
        args =
      (CLIParser.new rest).parse platform (mainCallbacks δ) (assignAll groups args) := by
  induction groups generalizing args with
  | nil => rfl
  | cons group groups ih =>
    rw [List.flatMap_cons, List.append_assoc, parse_group, ih]
    rfl

/-- At `--help` the parsing ends. -/
theorem parse_help (rest : List String) (args : Arguments) :
    (CLIParser.new ("--help" :: rest)).parse platform (mainCallbacks δ) args =
      ⟨true, "", args, (CLIParser.new rest).end_⟩ := by
  have hcalled := dispatch_main platform rest "--help" args
  rw [parse_cons_of_returns platform _ rfl rfl hcalled]
  exact parse_of_ended platform _ rfl _

/-- The parser of `main` reads groups to the end of its arguments, or up to `--help`, or it
fails. -/
theorem parse_cases (argv : List String) (args : Arguments) :
    let parsed := (CLIParser.new argv).parse platform (mainCallbacks δ) args
    (∃ groups : List OptionGroup, argv = groups.flatMap OptionGroup.words ∧
      parsed = ⟨true, "", assignAll groups args, .new []⟩) ∨
    (∃ (groups : List OptionGroup) (rest : List String),
      argv = groups.flatMap OptionGroup.words ++ "--help" :: rest ∧
      parsed = ⟨true, "", assignAll groups args, (CLIParser.new rest).end_⟩) ∨
    parsed.returned = false := by
  match argv with
  | [] => exact .inl ⟨[], rfl, parse_nil platform _ rfl args⟩
  | next :: rest =>
    intro parsed
    have hfailed : ∀ e, ((CLIParser.new rest).dispatch platform (mainCallbacks δ) next args).error =
        some e → parsed.returned = false :=
      fun e he => parse_cons_of_throws platform _ rfl rfl he
    have hcalled := dispatch_main platform rest next args
    cases hfind : (mainCallbacks δ).callbacks next with
    | none =>
      rw [hfind] at hcalled
      exact .inr (.inr (hfailed _ (congrArg Called.error hcalled)))
    | some callback =>
      rw [hfind] at hcalled
      rcases (registered_of_find hfind).run_cases platform args rest with
        ⟨group, rest', hwords, hrun⟩ | ⟨rfl, hrun⟩ | hthrows
      · have hshort : rest'.length < (next :: rest).length := by
          rw [hwords, List.length_append]
          cases group <;> simp only [OptionGroup.words, List.length_cons, List.length_nil] <;> omega
        have hparsed : parsed =
            (CLIParser.new rest').parse platform (mainCallbacks δ) (group.assign args) := by
          rw [← parse_group, ← hwords]
        rcases parse_cases rest' (group.assign args) with
          ⟨groups, hrest, hdone⟩ | ⟨groups, rest'', hrest, hdone⟩ | hdone
        · refine .inl ⟨group :: groups, ?_, hparsed.trans hdone⟩
          rw [hwords, hrest, List.flatMap_cons]
        · refine .inr (.inl ⟨group :: groups, rest'', ?_, hparsed.trans hdone⟩)
          rw [hwords, hrest, List.flatMap_cons, List.append_assoc]
        · exact .inr (.inr (by rw [hparsed]; exact hdone))
      · exact .inr (.inl ⟨[], rest, rfl, parse_help platform rest args⟩)
      · obtain ⟨e, he⟩ := Option.ne_none_iff_exists'.mp hthrows
        exact .inr (.inr (hfailed e ((congrArg Called.error hcalled).trans he)))
termination_by argv.length
decreasing_by exact hshort

/-- What is left of an argument vector that is made up of groups. -/
theorem parseMain_groups (groups : List OptionGroup) :
    parseMain platform (groups.flatMap OptionGroup.words) =
      ⟨true, "", assignAll groups {}, .new []⟩ := by
  have hparsed := parse_groups platform groups [] {}
  rw [List.append_nil, parse_nil platform _ (p := .new []) rfl] at hparsed
  exact hparsed

/-- Counts are clamped to between none and three octaves. -/
theorem clampOctaves_val (n : Int32) : (clampOctaves n).val = max (min n 3) 0 := by
  change (if _ then _ else _) =
    if (if n ≤ 3 then n else 3) ≤ 0 then (0 : Int32) else if n ≤ 3 then n else 3
  simp only [numOctaves]
  split_ifs <;> grind

/-- `main` goes on with what the groups assign, both octave counts clamped. -/
theorem startup_groups (groups : List OptionGroup) :
    startup platform (groups.flatMap OptionGroup.words) =
      .run { assignAll groups {} with
        numActiveOctaves := max (min (assignAll groups {}).numActiveOctaves 3) 0
        numActiveOctavesUdp := max (min (assignAll groups {}).numActiveOctavesUdp 3) 0 } := by
  rw [startup, parseMain_groups, ← clampOctaves_val, ← clampOctaves_val]
  rfl

/-- **The command line accepts exactly its grammar.** For every argument vector, `parse` with
the callbacks of `main` returns true without ending if and only if the vector is a
concatenation of groups, returns true having ended if and only if it is such a concatenation
followed by `--help`, and returns false otherwise. On a concatenation of groups `main` goes on
with the groups' assignments over the defaults, both octave counts clamped to 0, 1, 2 or 3. -/
theorem command_line_grammar (argv : List String) :
    ((parseMain platform argv).returned = true ∧
      (parseMain platform argv).parser.endedState = false ↔ Grammatical argv) ∧
    ((parseMain platform argv).returned = true ∧
      (parseMain platform argv).parser.endedState = true ↔ AsksForHelp argv) ∧
    ((parseMain platform argv).returned = false ↔ ¬ Grammatical argv ∧ ¬ AsksForHelp argv) ∧
    ∀ groups : List OptionGroup, argv = groups.flatMap OptionGroup.words →
      startup platform argv =
        .run { assignAll groups {} with
          numActiveOctaves := max (min (assignAll groups {}).numActiveOctaves 3) 0
          numActiveOctavesUdp := max (min (assignAll groups {}).numActiveOctavesUdp 3) 0 } := by
  have hhelp : AsksForHelp argv → (parseMain platform argv).returned = true ∧
      (parseMain platform argv).parser.endedState = true := by
    rintro ⟨groups, rest, hargv⟩
    have hparsed := parse_groups platform groups ("--help" :: rest) {}
    rw [← hargv, parse_help] at hparsed
    rw [parseMain, hparsed]
    exact ⟨rfl, rfl⟩
  have hgrammatical : Grammatical argv → (parseMain platform argv).returned = true ∧
      (parseMain platform argv).parser.endedState = false := by
    rintro ⟨groups, hargv⟩
    rw [hargv, parseMain_groups]
    exact ⟨rfl, rfl⟩
  have hcases : Grammatical argv ∨ AsksForHelp argv ∨
      (parseMain platform argv).returned = false := by
    rcases parse_cases platform argv {} with
      ⟨groups, hargv, -⟩ | ⟨groups, rest, hargv, -⟩ | hfailed
    · exact .inl ⟨groups, hargv⟩
    · exact .inr (.inl ⟨groups, rest, hargv⟩)
    · exact .inr (.inr hfailed)
  refine ⟨⟨?_, hgrammatical⟩, ⟨?_, hhelp⟩, ⟨?_, ?_⟩, ?_⟩
  · rintro ⟨hreturned, hrunning⟩
    rcases hcases with hgram | hask | hfailed
    · exact hgram
    · exact absurd (hrunning.symm.trans (hhelp hask).2) (by decide)
    · exact absurd (hfailed.symm.trans hreturned) (by decide)
  · rintro ⟨hreturned, hended⟩
    rcases hcases with hgram | hask | hfailed
    · exact absurd ((hgrammatical hgram).2.symm.trans hended) (by decide)
    · exact hask
    · exact absurd (hfailed.symm.trans hreturned) (by decide)
  · intro hfailed
    constructor
    · intro hgram
      exact absurd (hfailed.symm.trans (hgrammatical hgram).1) (by decide)
    · intro hask
      exact absurd (hfailed.symm.trans (hhelp hask).1) (by decide)
  · rintro ⟨hgram, hask⟩
    rcases hcases with hgram' | hask' | hfailed
    · exact absurd hgram' hgram
    · exact absurd hask' hask
    · exact hfailed
  · intro groups hargv
    rw [hargv, startup_groups]

end Rounds

/-- A command line that sets one option twice, the second time with white space, a sign and
trailing characters, and both octave counts out of range. -/
theorem command_line_grammar_last_wins :
    startup (⟨.bits64, fun _ => .error .noDigits⟩ : Platform Unit)
        ["--base-key", "48", "--active-octaves", "9", "--udp-sink", "--help", "--base-key",
          " +50st", "--active-octaves-udp", "-2"] =
      .run {
        udpSink := "--help"
        baseKey := 50
        numActiveOctaves := 3
        numActiveOctavesUdp := 0 } := by
  have hfirst : Denotes "48".toList (48 : Int32).toInt :=
    ⟨false, 48, (scan_eq_some_iff _ _ _).mp (by decide), by decide⟩
  have hlast : Denotes " +50st".toList (50 : Int32).toInt :=
    ⟨false, 50, (scan_eq_some_iff _ _ _).mp (by decide), by decide⟩
  have hmany : Denotes "9".toList (9 : Int32).toInt :=
    ⟨false, 9, (scan_eq_some_iff _ _ _).mp (by decide), by decide⟩
  have hfew : Denotes "-2".toList (-2 : Int32).toInt :=
    ⟨true, 2, (scan_eq_some_iff _ _ _).mp (by decide), by decide⟩
  exact (command_line_grammar _ _).2.2.2
    [.int .baseKey _ _ hfirst, .int .activeOctaves _ _ hmany, .udpSink "--help",
      .int .baseKey _ _ hlast, .int .activeOctavesUdp _ _ hfew] rfl

end Sussybard

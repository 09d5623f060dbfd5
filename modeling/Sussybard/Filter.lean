import Sussybard.CliParser
import Sussybard.General.Buffer

/-!
# Filtering the command line

`parse_cli_filtered` runs the parser with a default handler that collects what
no callback takes, and writes the collection back over `argv`. It does so only
after the whole vector is parsed, so that a failure leaves `argv` as it was.
`Walk` says, apart from the code, which arguments the loop reaches and which
ones the callbacks consume.
-/

namespace Sussybard

open Buffer

/-- How `parse_cli_filtered` leaves its caller. -/
structure Filtered (σ : Type*) where
  /-- What it returns. -/
  returned : Bool
  /-- `exit_code` -/
  exitCode : ℤ
  /-- What it prints to `stderr`. -/
  stderr : String
  /-- `argc` -/
  argc : ℕ
  /-- The array `argv`, whose entries are strings or null. -/
  argv : List (Option String)
  /-- The state of the callbacks. -/
  state : σ
  deriving DecidableEq

section

variable {δ σ τ : Type*} (platform : Platform δ)

/-- A callback on another state. -/
def CLICallback.map (f : σ → τ) : CLICallback δ σ → CLICallback δ τ
  | .returns state => .returns (f state)
  | .throws error state => .throws error (f state)
  | .nextUint k => .nextUint fun r => (k r).map f
  | .nextInt k => .nextInt fun r => (k r).map f
  | .nextDouble k => .nextDouble fun r => (k r).map f
  | .nextString k => .nextString fun r => (k r).map f
  | .end_ k => .end_ (k.map f)

/-- The callbacks with the default handler of `parse_cli_filtered`, which pushes its argument
onto `filtered`. -/
def CLICallbacks.collecting (cbs : CLICallbacks δ σ) :
    CLICallbacks δ (σ × List (Option String)) where
  callbacks next := (cbs.callbacks next).map fun callback s =>
    (callback s.1).map fun state => (state, s.2)
  errorHandler := cbs.errorHandler.map fun handler s => (handler s.1, s.2)
  defaultHandler := some fun arg s => (s.1, s.2 ++ [some arg])

/-- `parse_cli_filtered`. A write outside of `argv` is `none`. -/
def parseCliFiltered (cbs : CLICallbacks δ σ) (argc : ℕ) (argv : List (Option String))
    (state : σ) : Option (Filtered σ) :=
  if argc = 0 then some ⟨false, 1, "", argc, argv, state⟩
  else
    let args := ((argv.drop 1).take (argc - 1)).filterMap id
    let parser := (CLIParser.new args).ignoreUnknownArguments
    let parsed := parser.parse platform cbs.collecting (state, argv.take 1)
    if !parsed.returned then some ⟨false, 1, parsed.stderr, argc, argv, parsed.state.1⟩
    else if parsed.parser.endedState then
      some ⟨false, 0, parsed.stderr, argc, argv, parsed.state.1⟩
    else
      let filtered := parsed.state.2
      (storeAll argv 0 filtered).bind fun argv =>
        (store argv filtered.length none).map fun argv =>
          ⟨true, 0, parsed.stderr, filtered.length, argv, parsed.state.1⟩

/-! ### What the loop reaches -/

/-- An argument that no callback takes: it does not start with `-`, or it has no callback. -/
def CLICallbacks.keeps (cbs : CLICallbacks δ σ) (arg : String) : Bool :=
  !startsWithDash arg || (cbs.callbacks arg).isNone

/-- The parser of `parse_cli_filtered` with these arguments left. -/
def filterParser (args : List String) : CLIParser := (CLIParser.new args).ignoreUnknownArguments

/-- How a walk over the arguments ends. -/
inductive WalkEnd (σ : Type*) where
  /-- No argument is left. -/
  | finished (state : σ)
  /-- A callback ended the parsing. -/
  | ended (state : σ)
  /-- A callback threw. -/
  | failed (error : CliError) (state : σ)

/-- The walk over an argument vector: `reached` are the arguments that the loop itself takes,
in order; what a callback consumes after its own name is passed over. -/
inductive Walk (cbs : CLICallbacks δ σ) : σ → List String → List String → WalkEnd σ → Prop
  | done (state : σ) : Walk cbs state [] [] (.finished state)
  | keep {state : σ} {arg : String} {rest reached : List String} {result : WalkEnd σ}
      (hkeeps : cbs.keeps arg) (hrest : Walk cbs state rest reached result) :
      Walk cbs state (arg :: rest) (arg :: reached) result
  | call {state state' : σ} {arg : String} {consumed rest reached : List String}
      {result : WalkEnd σ} {callback : σ → CLICallback δ σ} (htaken : cbs.keeps arg = false)
      (hfind : cbs.callbacks arg = some callback)
      (hrun : (callback state).run platform (filterParser (consumed ++ rest)) =
        ⟨none, state', filterParser rest⟩)
      (hrest : Walk cbs state' rest reached result) :
      Walk cbs state (arg :: (consumed ++ rest)) (arg :: reached) result
  | ends {state state' : σ} {arg : String} {rest : List String} {parser : CLIParser}
      {callback : σ → CLICallback δ σ} (htaken : cbs.keeps arg = false)
      (hfind : cbs.callbacks arg = some callback)
      (hrun : (callback state).run platform (filterParser rest) = ⟨none, state', parser⟩)
      (hended : parser.endedState = true) :
      Walk cbs state (arg :: rest) [arg] (.ended state')
  | throws {state state' : σ} {arg : String} {rest : List String} {parser : CLIParser}
      {callback : σ → CLICallback δ σ} {error : CliError} (htaken : cbs.keeps arg = false)
      (hfind : cbs.callbacks arg = some callback)
      (hrun : (callback state).run platform (filterParser rest) = ⟨some error, state', parser⟩) :
      Walk cbs state (arg :: rest) [arg] (.failed error state')

/-- The loop reaches arguments in their original order. -/
theorem Walk.sublist {cbs : CLICallbacks δ σ} {state : σ} {args reached : List String}
    {result : WalkEnd σ} (h : Walk platform cbs state args reached result) :
    reached.Sublist args := by
  induction h with
  | done => exact .slnil
  | keep _ _ ih => exact ih.cons_cons _
  | call _ _ _ _ ih => exact (ih.trans (List.sublist_append_right _ _)).cons_cons _
  | ends => exact (List.nil_sublist _).cons_cons _
  | throws => exact (List.nil_sublist _).cons_cons _

/-- Reading a number or a string leaves the flags of the parser alone. -/
theorem CLIParser.next_unknown (p : CLIParser) :
    (p.nextUint platform.long).2.unknownArgumentIsDefault = p.unknownArgumentIsDefault ∧
      (p.nextInt platform.long).2.unknownArgumentIsDefault = p.unknownArgumentIsDefault ∧
      (p.nextDouble platform).2.unknownArgumentIsDefault = p.unknownArgumentIsDefault ∧
      p.nextString.2.unknownArgumentIsDefault = p.unknownArgumentIsDefault := by
  obtain ⟨args, ended, unknown⟩ := p
  cases args with
  | nil => exact ⟨rfl, rfl, rfl, rfl⟩
  | cons arg rest =>
    refine ⟨?_, ?_, ?_, rfl⟩
    · simp only [nextUint]
      split
      · rfl
      · split <;> rfl
    · simp only [nextInt]
      split
      · rfl
      · split <;> rfl
    · simp only [nextDouble]
      split <;> rfl

/-- No callback changes how the parser treats unknown arguments. -/
theorem CLICallback.run_unknown (callback : CLICallback δ σ) (p : CLIParser) :
    (callback.run platform p).parser.unknownArgumentIsDefault = p.unknownArgumentIsDefault := by
  induction callback generalizing p with
  | returns state => rfl
  | throws error state => rfl
  | nextUint k ih => exact (ih _ _).trans (p.next_unknown platform).1
  | nextInt k ih => exact (ih _ _).trans (p.next_unknown platform).2.1
  | nextDouble k ih => exact (ih _ _).trans (p.next_unknown platform).2.2.1
  | nextString k ih => exact (ih _ _).trans (p.next_unknown platform).2.2.2
  | end_ k ih => exact ih p.end_

/-- A callback on another state does the same to the parser. -/
theorem CLICallback.run_map (f : σ → τ) (callback : CLICallback δ σ) (p : CLIParser) :
    (callback.map f).run platform p =
      ⟨(callback.run platform p).error, f (callback.run platform p).state,
        (callback.run platform p).parser⟩ := by
  induction callback generalizing p with
  | returns state => rfl
  | throws error state => rfl
  | nextUint k ih => exact ih _ _
  | nextInt k ih => exact ih _ _
  | nextDouble k ih => exact ih _ _
  | nextString k ih => exact ih _ _
  | end_ k ih => exact ih _

/-- An argument that is not kept has a callback. -/
theorem CLICallbacks.find_of_keeps_eq_false {cbs : CLICallbacks δ σ} {arg : String}
    (htaken : cbs.keeps arg = false) :
    startsWithDash arg = true ∧ ∃ callback, cbs.callbacks arg = some callback := by
  simp only [keeps, Bool.or_eq_false_iff, Bool.not_eq_false', Option.isNone_eq_false_iff] at htaken
  exact ⟨htaken.1, Option.isSome_iff_exists.mp htaken.2⟩

/-- Every argument vector has its walk. -/
theorem exists_walk (cbs : CLICallbacks δ σ) (state : σ) (args : List String) :
    ∃ reached result, Walk platform cbs state args reached result := by
  induction hlength : args.length using Nat.strong_induction_on generalizing state args with
  | h n ih =>
    subst hlength
    cases args with
    | nil => exact ⟨[], _, .done state⟩
    | cons arg rest =>
      cases hkeeps : cbs.keeps arg with
      | true =>
        obtain ⟨reached, result, hwalk⟩ := ih rest.length (by simp) state rest rfl
        exact ⟨_, _, .keep hkeeps hwalk⟩
      | false =>
        obtain ⟨-, callback, hfind⟩ := CLICallbacks.find_of_keeps_eq_false hkeeps
        obtain ⟨consumed, hconsumed⟩ :=
          CLICallback.run_suffix platform (callback state) (filterParser rest)
        have hunknown := CLICallback.run_unknown platform (callback state) (filterParser rest)
        generalize hrun : (callback state).run platform (filterParser rest) = called at *
        obtain ⟨error, state', rest', ended, unknown⟩ := called
        obtain rfl : unknown = true := hunknown
        cases error with
        | some error => exact ⟨_, _, .throws hkeeps hfind hrun⟩
        | none =>
          cases ended with
          | true => exact ⟨_, _, .ends hkeeps hfind hrun rfl⟩
          | false =>
            obtain rfl : consumed ++ rest' = rest := hconsumed
            have hshort : rest'.length < (arg :: (consumed ++ rest')).length := by
              rw [List.length_cons, List.length_append]
              omega
            obtain ⟨reached, result, hwalk⟩ := ih rest'.length hshort state' rest' rfl
            exact ⟨_, _, .call hkeeps hfind hrun hwalk⟩

/-- What the parser with the collecting handler returns at the end of a walk that reached
these arguments. -/
def Walked (cbs : CLICallbacks δ σ) (reached : List String) (filtered : List (Option String))
    (parsed : Parsed (σ × List (Option String))) : WalkEnd σ → Prop
  | .finished state => parsed.returned = true ∧ parsed.parser.endedState = false ∧
      parsed.stderr = "" ∧ parsed.state = (state, filtered ++ (reached.filter cbs.keeps).map some)
  | .ended state => parsed.returned = true ∧ parsed.parser.endedState = true ∧
      parsed.stderr = "" ∧ parsed.state.1 = state
  | .failed _ _ => parsed.returned = false

/-- One more argument at the front of a walk is collected first, if it is kept. -/
theorem Walked.cons {cbs : CLICallbacks δ σ} {arg : String} {reached : List String}
    {filtered : List (Option String)} {parsed : Parsed (σ × List (Option String))}
    {result : WalkEnd σ}
    (h : Walked cbs reached (filtered ++ ([arg].filter cbs.keeps).map some) parsed result) :
    Walked cbs (arg :: reached) filtered parsed result := by
  cases result with
  | finished state =>
    obtain ⟨hreturned, hended, hstderr, hstate⟩ := h
    refine ⟨hreturned, hended, hstderr, ?_⟩
    rw [hstate, List.append_assoc, ← List.map_append, ← List.filter_append]
    rfl
  | ended state => exact h
  | failed error state => exact h

/-- What the loop does with an argument that no callback takes. -/
theorem dispatch_keep {cbs : CLICallbacks δ σ} {arg : String} (hkeeps : cbs.keeps arg)
    (rest : List String) (s : σ × List (Option String)) :
    (filterParser rest).dispatch platform cbs.collecting arg s =
      ⟨none, (s.1, s.2 ++ [some arg]), filterParser rest⟩ := by
  rw [CLIParser.dispatch.eq_def]
  simp only [CLICallbacks.collecting]
  cases hdash : startsWithDash arg with
  | false => rfl
  | true =>
    have hnone : cbs.callbacks arg = none := by
      simpa [CLICallbacks.keeps, hdash] using hkeeps
    rw [hnone]
    rfl

/-- What the loop does with an argument that has a callback. -/
theorem dispatch_call {cbs : CLICallbacks δ σ} {arg : String} (htaken : cbs.keeps arg = false)
    {callback : σ → CLICallback δ σ} (hfind : cbs.callbacks arg = some callback)
    (rest : List String) (s : σ × List (Option String)) :
    (filterParser rest).dispatch platform cbs.collecting arg s =
      ⟨((callback s.1).run platform (filterParser rest)).error,
        (((callback s.1).run platform (filterParser rest)).state, s.2),
        ((callback s.1).run platform (filterParser rest)).parser⟩ := by
  have hdash := (CLICallbacks.find_of_keeps_eq_false htaken).1
  rw [CLIParser.dispatch.eq_def, hdash]
  simp only [CLICallbacks.collecting, hfind, Option.map_some]
  exact CLICallback.run_map platform _ _ _

/-- **The parser follows the walk.** -/
theorem Walk.parse {cbs : CLICallbacks δ σ} {state : σ} {args reached : List String}
    {result : WalkEnd σ} (h : Walk platform cbs state args reached result)
    (filtered : List (Option String)) :
    Walked cbs reached filtered
      ((filterParser args).parse platform cbs.collecting (state, filtered)) result := by
  induction h generalizing filtered with
  | done state =>
    rw [parse_nil platform _ (p := filterParser []) rfl]
    exact ⟨rfl, rfl, rfl, by simp⟩
  | @keep state arg rest reached result hkeeps hrest ih =>
    rw [parse_cons_of_returns platform _ (p := filterParser (arg :: rest)) rfl rfl
      (dispatch_keep platform hkeeps rest _)]
    refine Walked.cons ?_
    rw [List.filter_singleton, hkeeps]
    exact ih (filtered ++ [some arg])
  | @call state state' arg consumed rest reached result callback htaken hfind hrun hrest ih =>
    have hcalled := dispatch_call platform htaken hfind (consumed ++ rest) (state, filtered)
    rw [hrun] at hcalled
    rw [parse_cons_of_returns platform _ (p := filterParser (arg :: (consumed ++ rest))) rfl rfl
      hcalled]
    refine Walked.cons ?_
    rw [List.filter_singleton, htaken]
    simpa using ih filtered
  | @ends state state' arg rest parser callback htaken hfind hrun hended =>
    have hcalled := dispatch_call platform htaken hfind rest (state, filtered)
    rw [hrun] at hcalled
    rw [parse_cons_of_returns platform _ (p := filterParser (arg :: rest)) rfl rfl hcalled,
      parse_of_ended platform _ hended]
    exact ⟨rfl, hended, rfl, rfl⟩
  | @throws state state' arg rest parser callback error htaken hfind hrun =>
    have hcalled := dispatch_call platform htaken hfind rest (state, filtered)
    rw [hrun] at hcalled
    exact parse_cons_of_throws platform _ (p := filterParser (arg :: rest)) rfl rfl
      (congrArg Called.error hcalled)

/-! ### The filter -/

/-- The array `argv` of a call: the strings, the terminator, and whatever lies beyond. -/
def argvOf (args : List String) (beyond : List (Option String)) : List (Option String) :=
  args.map some ++ none :: beyond

/-- Copying the collection back and terminating it makes it the argument vector. -/
theorem copy_back {filtered args : List String} (beyond : List (Option String))
    (hle : filtered.length ≤ args.length) :
    ((storeAll (argvOf args beyond) 0 (filtered.map some)).bind fun argv =>
        store argv filtered.length none) =
      some (argvOf filtered ((argvOf args beyond).drop (filtered.length + 1))) := by
  have hfits : 0 + (filtered.map some ++ [none]).length ≤ (argvOf args beyond).length := by
    simp only [argvOf, List.length_append, List.length_map, List.length_cons, List.length_nil]
    omega
  have hall := storeAll_eq _ _ _ hfits
  rw [storeAll_append] at hall
  simp only [storeAll_singleton, List.length_append, List.length_map, Nat.zero_add,
    List.length_singleton, List.take_zero, List.nil_append] at hall
  rw [hall, argvOf, List.append_assoc]
  rfl

/-- What a call does, by the walk over its arguments. -/
theorem parseCliFiltered_of_walk {cbs : CLICallbacks δ σ} {state : σ} (name : String)
    {args reached : List String} {result : WalkEnd σ}
    (h : Walk platform cbs state args reached result) (beyond : List (Option String)) :
    let argv := argvOf (name :: args) beyond
    match result with
    | .finished state' =>
      let kept := name :: reached.filter cbs.keeps
      parseCliFiltered platform cbs (args.length + 1) argv state =
        some ⟨true, 0, "", kept.length, argvOf kept (argv.drop (kept.length + 1)), state'⟩
    | .ended state' =>
      parseCliFiltered platform cbs (args.length + 1) argv state =
        some ⟨false, 0, "", args.length + 1, argv, state'⟩
    | .failed _ _ =>
      ∃ stderr state', parseCliFiltered platform cbs (args.length + 1) argv state =
        some ⟨false, 1, stderr, args.length + 1, argv, state'⟩ := by
  intro argv
  have hargs : ((argv.drop 1).take (args.length + 1 - 1)).filterMap id = args := by
    simp [argv, argvOf]
  have hwalked := h.parse platform [some name]
  have hcall : parseCliFiltered platform cbs (args.length + 1) argv state =
      let parsed := (filterParser args).parse platform cbs.collecting (state, [some name])
      if !parsed.returned then
        some ⟨false, 1, parsed.stderr, args.length + 1, argv, parsed.state.1⟩
      else if parsed.parser.endedState then
        some ⟨false, 0, parsed.stderr, args.length + 1, argv, parsed.state.1⟩
      else
        (storeAll argv 0 parsed.state.2).bind fun argv =>
          (store argv parsed.state.2.length none).map fun argv =>
            ⟨true, 0, parsed.stderr, parsed.state.2.length, argv, parsed.state.1⟩ := by
    rw [parseCliFiltered, if_neg (Nat.succ_ne_zero _), hargs]
    rfl
  rw [hcall]
  generalize (filterParser args).parse platform cbs.collecting (state, [some name]) = parsed at *
  cases result with
  | finished state' =>
    obtain ⟨hreturned, hended, hstderr, hstate⟩ := hwalked
    have hkept : [some name] ++ (reached.filter cbs.keeps).map some =
        (name :: reached.filter cbs.keeps).map some := rfl
    have hle : (name :: reached.filter cbs.keeps).length ≤ (name :: args).length :=
      ((List.filter_sublist.trans h.sublist).cons_cons name).length_le
    have hcopy := congrArg (Option.map fun argv => (⟨true, 0, "",
      (name :: reached.filter cbs.keeps).length, argv, state'⟩ : Filtered σ))
      (copy_back beyond hle)
    rw [Option.map_bind] at hcopy
    simp only [hreturned, hended, hstderr, hstate, hkept, List.length_map, Bool.not_true,
      Bool.false_eq_true, if_false]
    exact hcopy
  | ended state' =>
    obtain ⟨hreturned, hended, hstderr, hstate⟩ := hwalked
    simp [hreturned, hended, hstderr, hstate]
  | failed error state' =>
    have hreturned : parsed.returned = false := hwalked
    exact ⟨parsed.stderr, parsed.state.1, by simp [hreturned]⟩

/-- Where every argument is kept, the loop calls nothing. -/
theorem walk_of_keeps {cbs : CLICallbacks δ σ} (state : σ) {args : List String}
    (hkeeps : ∀ arg ∈ args, cbs.keeps arg) :
    Walk platform cbs state args args (.finished state) := by
  induction args with
  | nil => exact .done state
  | cons arg rest ih =>
    exact .keep (hkeeps arg List.mem_cons_self)
      (ih fun arg' harg' => hkeeps arg' (List.mem_cons_of_mem _ harg'))

/-- What the array holds up to its terminator. -/
theorem argvOf_take (args : List String) (beyond : List (Option String)) :
    (argvOf args beyond).take args.length = args.map some ∧
      (argvOf args beyond)[args.length]? = some none := by
  constructor
  · rw [argvOf, List.take_append_of_le_length (by simp), List.take_of_length_le (by simp)]
  · rw [argvOf, List.getElem?_append_right (by simp)]
    simp

/-- What the array holds beyond its terminator. -/
theorem argvOf_drop (args : List String) (beyond : List (Option String)) :
    (argvOf args beyond).drop (args.length + 1) = beyond := by
  have hsplit : argvOf args beyond = (args.map some ++ [none]) ++ beyond := by simp [argvOf]
  rw [hsplit]
  exact List.drop_left' (by simp)

/-- A successful call: `argv` is what no callback took, in order, and terminated. -/
structure KeepsUntaken (cbs : CLICallbacks δ σ) (name : String) (args reached : List String)
    (r : Filtered σ) : Prop where
  exitCode_eq : r.exitCode = 0
  reached_sublist : reached.Sublist args
  argc_eq : r.argc = (name :: reached.filter cbs.keeps).length
  front_eq : r.argv.take r.argc = (name :: reached.filter cbs.keeps).map some
  argc_le : r.argc ≤ args.length + 1
  terminated : r.argv[r.argc]? = some none
  length_eq : r.argv.length = args.length + 1 + 1

/-- Two tables name the same callbacks. -/
def SameNames (cbs cbs' : CLICallbacks δ σ) : Prop :=
  ∀ arg, (cbs'.callbacks arg).isSome = (cbs.callbacks arg).isSome

/-- A call that finds only what it keeps gives everything back as it was, whatever the
callbacks would have done. -/
theorem parseCliFiltered_kept {cbs cbs' : CLICallbacks δ σ} (hnames : SameNames cbs cbs')
    (name : String) {args : List String} (hkeeps : ∀ arg ∈ args, cbs.keeps arg)
    (beyond : List (Option String)) (state : σ) :
    parseCliFiltered platform cbs' (args.length + 1) (argvOf (name :: args) beyond) state =
      some ⟨true, 0, "", args.length + 1, argvOf (name :: args) beyond, state⟩ := by
  have hkeeps' : ∀ arg ∈ args, cbs'.keeps arg := by
    intro arg harg
    have hkept := hkeeps arg harg
    have hname := hnames arg
    simp only [CLICallbacks.keeps, ← Option.not_isSome] at hkept ⊢
    rw [hname]
    exact hkept
  have hcall := parseCliFiltered_of_walk platform name
    (walk_of_keeps platform state hkeeps') beyond
  have hfilter : args.filter cbs'.keeps = args := List.filter_eq_self.mpr hkeeps'
  simp only [hfilter] at hcall
  rw [hcall]
  rw [argvOf_drop]
  rfl

/-- **The filter is atomic, keeps the order and is idempotent.** For every table of callbacks
and every `argv` of `argc` strings and a terminator, `parse_cli_filtered` stays within the
array. It returns true exactly when the walk over the arguments finishes, and then `argv` is
what no callback took; a further call with the same names returns true, runs no callback and
changes nothing. Otherwise `argc` and `argv` are as they were, and the exit code is 0 when a
callback ended the parsing and 1 when there was an error. -/
theorem parse_cli_filtered_filters (cbs : CLICallbacks δ σ) (state : σ) (name : String)
    (args : List String) :
    ∃ r, parseCliFiltered platform cbs (args.length + 1) (argvOf (name :: args) []) state =
        some r ∧
      (r.returned = true →
        (∃ reached state', Walk platform cbs state args reached (.finished state') ∧
          KeepsUntaken cbs name args reached r) ∧
        ∀ cbs' state', SameNames cbs cbs' →
          parseCliFiltered platform cbs' r.argc r.argv state' =
            some ⟨true, 0, "", r.argc, r.argv, state'⟩) ∧
      (r.returned = false →
        r.argc = args.length + 1 ∧ r.argv = argvOf (name :: args) [] ∧
          (r.exitCode = 0 ∨ r.exitCode = 1) ∧
          (r.exitCode = 0 ↔ ∃ reached state', Walk platform cbs state args reached
            (.ended state')) ∧
          (r.exitCode = 1 ↔ ∃ reached error state', Walk platform cbs state args reached
            (.failed error state'))) := by
  obtain ⟨reached, result, hwalk⟩ := exists_walk platform cbs state args
  have hcall := parseCliFiltered_of_walk platform name hwalk []
  -- Another walk would lead to the same call.
  have hended : ∀ {r reached' state'}, parseCliFiltered platform cbs (args.length + 1)
      (argvOf (name :: args) []) state = some r →
      Walk platform cbs state args reached' (.ended state') → r.exitCode = 0 := by
    intro r reached' state' hr hwalk'
    have hcall' := parseCliFiltered_of_walk platform name hwalk' []
    obtain rfl := Option.some.inj (hr.symm.trans hcall')
    rfl
  have hfailed : ∀ {r reached' error state'}, parseCliFiltered platform cbs (args.length + 1)
      (argvOf (name :: args) []) state = some r →
      Walk platform cbs state args reached' (.failed error state') → r.exitCode = 1 := by
    intro r reached' error state' hr hwalk'
    obtain ⟨stderr, state'', hcall'⟩ := parseCliFiltered_of_walk platform name hwalk' []
    obtain rfl := Option.some.inj (hr.symm.trans hcall')
    rfl
  cases result with
  | finished state' =>
    have hsublist := hwalk.sublist platform
    have hkept : (name :: reached.filter cbs.keeps).length ≤ args.length + 1 :=
      ((List.filter_sublist.trans hsublist).cons_cons name).length_le
    obtain ⟨hfront, hterminated⟩ := argvOf_take (name :: reached.filter cbs.keeps)
      ((argvOf (name :: args) []).drop ((name :: reached.filter cbs.keeps).length + 1))
    refine ⟨_, hcall, fun _ => ⟨⟨reached, state', hwalk, rfl, hsublist, rfl, hfront, hkept,
      hterminated, ?_⟩, ?_⟩, nofun⟩
    · simp only [argvOf, List.length_append, List.length_map, List.length_cons, List.length_drop,
        List.length_nil] at hkept ⊢
      omega
    · intro cbs' state'' hnames
      exact parseCliFiltered_kept platform hnames name
        (fun arg harg => (List.mem_filter.mp harg).2) _ state''
  | ended state' =>
    refine ⟨_, hcall, nofun, fun _ => ⟨rfl, rfl, .inl rfl, ⟨fun _ => ⟨reached, state', hwalk⟩,
      fun _ => rfl⟩, ⟨nofun, ?_⟩⟩⟩
    rintro ⟨reached', error, state'', hwalk'⟩
    exact hfailed hcall hwalk'
  | failed error state' =>
    obtain ⟨stderr, state'', hcall⟩ := hcall
    refine ⟨_, hcall, nofun, fun _ => ⟨rfl, rfl, .inr rfl, ⟨nofun, ?_⟩,
      ⟨fun _ => ⟨reached, error, state', hwalk⟩, fun _ => rfl⟩⟩⟩
    rintro ⟨reached', state'', hwalk'⟩
    exact hended hcall hwalk'

end

end Sussybard

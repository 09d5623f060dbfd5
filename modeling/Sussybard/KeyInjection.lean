import Sussybard.KeyTable
import Sussybard.KeyTrace

/-!
# From key events to the keyboard

`KeySink::dispatch` hands key events on: to libxcb as requests, which it flushes,
and to Windows as an array of inputs, of which `SendInput` may insert only the
first ones. The keyboards behind them show the key that the local tracker holds.
What Windows does not insert is lost, and `dispatch` does not look; but a key
stays down for good only when its own release was lost.
-/

namespace Sussybard

open Switching Transducer

/-! ### The sink of Windows -/

/-- `KEYEVENTF_KEYUP` -/
def keyeventfKeyup : UInt32 := 0x0002

/-- `INPUT` of the type `INPUT_KEYBOARD`, as far as it is filled in. -/
structure Input where
  /-- `ki.wVk`, a `WORD`. -/
  wVk : UInt16
  /-- `ki.dwFlags` -/
  dwFlags : UInt32
  deriving DecidableEq, Repr

/-- The input that is made of a key event. -/
def KeyEvent.toInput (e : KeyEvent) : Input where
  wVk := e.code.toUInt16
  dwFlags := if e.press then 0 else keyeventfKeyup

/-- What an input does to the keyboard. -/
def Input.toSwitch (input : Input) : Switch UInt16 :=
  ⟨input.dwFlags &&& keyeventfKeyup == 0, input.wVk⟩

/-- The member of the Win32 `KeySink`. -/
structure Win32KeySink where
  /-- `input_buffer` -/
  inputBuffer : List Input := []
  deriving DecidableEq, Repr

/-- `KeySink::dispatch`: the sink after, and the array that it hands to `SendInput`. -/
def Win32KeySink.dispatch (sink : Win32KeySink) (events : List KeyEvent) :
    Win32KeySink × List Input :=
  let cleared := { sink with inputBuffer := [] }
  let filled := events.foldl (fun s e => { s with inputBuffer := s.inputBuffer ++ [e.toInput] })
    cleared
  (filled, filled.inputBuffer.take events.length)

/-- A call of `dispatch` of which `SendInput` inserts the first inputs, as many as it returns. -/
def win32Step (sink : Win32KeySink) (call : List KeyEvent × ℕ) : Win32KeySink × List Input :=
  ((sink.dispatch call.1).1, (sink.dispatch call.1).2.take call.2)

/-- The inputs that are inserted while some effects take place. -/
def inserted (returns : ℕ → ℕ) (effects : List Effect) : List Input :=
  (exec win32Step {} ((keyDispatches effects).zipIdx.map fun call => (call.1, returns call.2))).2

/-- `SendInput` inserts all that it is given meanwhile. -/
def InsertsAll (returns : ℕ → ℕ) (effects : List Effect) : Prop :=
  ∀ call ∈ (keyDispatches effects).zipIdx, returns call.2 = call.1.length

/-- The key events whose inputs are not inserted meanwhile. -/
def lost (returns : ℕ → ℕ) (effects : List Effect) : List KeyEvent :=
  (keyDispatches effects).zipIdx.flatMap fun call => call.1.drop (returns call.2)

/-- The virtual keys that are down after some inputs. -/
def virtualKeysDown (inputs : List Input) : Finset UInt16 := active ∅ (inputs.map Input.toSwitch)

/-! ### The sink of X -/

/-- A request of `xcb_test_fake_input`. -/
structure FakeInput where
  /-- `type` -/
  type : UInt8
  /-- `detail` -/
  detail : UInt8
  deriving DecidableEq, Repr

/-- The request that is made of a key event: `XCB_KEY_PRESS` is 2, `XCB_KEY_RELEASE` is 3. -/
def KeyEvent.toFakeInput (e : KeyEvent) : FakeInput where
  type := if e.press then 2 else 3
  detail := e.code.toUInt8

/-- What a request does to the keyboard, if it is one of a key. -/
def FakeInput.toSwitch (request : FakeInput) : Option (Switch UInt8) :=
  if request.type = 2 then some ⟨true, request.detail⟩
  else if request.type = 3 then some ⟨false, request.detail⟩
  else none

/-- What `dispatch` uses of libxcb, on connections of any type. -/
structure Xcb (γ : Type*) where
  /-- `xcb_test_fake_input` -/
  testFakeInput : γ → FakeInput → γ
  /-- `xcb_flush`, with its result. -/
  flush : γ → γ × Int32
  /-- `xcb_connection_has_error` -/
  hasError : γ → Bool
  /-- The requests that are buffered. -/
  queue : γ → List FakeInput
  /-- The requests that have been written to the server. -/
  written : γ → List FakeInput

section

variable {γ : Type*}

/-- What libxcb documents of it. Requests are written in the order in which they are made, some of
them before they are flushed; a flush with a positive result has written what was buffered; and a
connection that has an error keeps it, and is not flushed. -/
structure Xcb.Documented (xcb : Xcb γ) : Prop where
  request : ∀ conn r, xcb.hasError (xcb.testFakeInput conn r) = false →
    xcb.written (xcb.testFakeInput conn r) ++ xcb.queue (xcb.testFakeInput conn r) =
      xcb.written conn ++ xcb.queue conn ++ [r]
  request_error : ∀ conn r, xcb.hasError conn = true →
    xcb.hasError (xcb.testFakeInput conn r) = true
  flush : ∀ conn, 0 < (xcb.flush conn).2 →
    xcb.written (xcb.flush conn).1 = xcb.written conn ++ xcb.queue conn ∧
      xcb.queue (xcb.flush conn).1 = []
  flush_error : ∀ conn, xcb.hasError conn = true → ¬ 0 < (xcb.flush conn).2

/-- `KeySink::dispatch`, and the result of its flush, at which it does not look. -/
def Xcb.dispatch (xcb : Xcb γ) (conn : γ) (events : List KeyEvent) : γ × List Int32 :=
  let queued := events.foldl (fun conn e => xcb.testFakeInput conn e.toFakeInput) conn
  ((xcb.flush queued).1, [(xcb.flush queued).2])

/-- The connection after some effects, and the results of its flushes. -/
def Xcb.after (xcb : Xcb γ) (conn : γ) (effects : List Effect) : γ × List Int32 :=
  exec xcb.dispatch conn (keyDispatches effects)

/-- The connection works while some effects take place: every flush succeeds. -/
def Xcb.Works (xcb : Xcb γ) (conn : γ) (effects : List Effect) : Prop :=
  ∀ result ∈ (xcb.after conn effects).2, 0 < result

end

/-- The key codes that are down after some requests. -/
def keycodesDown (requests : List FakeInput) : Finset UInt8 :=
  active ∅ (requests.filterMap FakeInput.toSwitch)

/-! ### What reaches the keyboards -/

/-- The buffer is filled with the inputs of this call, whatever it held. -/
theorem Win32KeySink.dispatch_snd (sink : Win32KeySink) (events : List KeyEvent) :
    (sink.dispatch events).2 = events.map KeyEvent.toInput := by
  have hfold : ∀ s : Win32KeySink,
      (events.foldl (fun s e => { s with inputBuffer := s.inputBuffer ++ [e.toInput] })
        s).inputBuffer = s.inputBuffer ++ events.map KeyEvent.toInput := by
    induction events with
    | nil => simp
    | cons e events ih => simp [ih]
  rw [dispatch, hfold, List.nil_append, List.take_of_length_le (by simp)]

/-- Of each dispatch the first inputs are inserted. -/
theorem inserted_eq (returns : ℕ → ℕ) (effects : List Effect) :
    inserted returns effects =
      ((keyDispatches effects).zipIdx.flatMap fun call => call.1.take (returns call.2)).map
        KeyEvent.toInput := by
  have hexec : ∀ (calls : List (List KeyEvent × ℕ)) (sink : Win32KeySink),
      (exec win32Step sink calls).2 =
        (calls.flatMap fun call => call.1.take call.2).map KeyEvent.toInput := by
    intro calls
    induction calls with
    | nil => exact fun _ => rfl
    | cons call calls ih =>
      intro sink
      rw [exec_cons, ih, List.flatMap_cons, List.map_append, win32Step,
        Win32KeySink.dispatch_snd, List.map_take]
  rw [inserted, hexec, List.flatMap_map]

/-- An input does to a virtual key what the event does to its code. -/
theorem KeyEvent.toSwitch_toInput (e : KeyEvent) :
    e.toInput.toSwitch = ⟨e.press, e.code.toUInt16⟩ := by
  have hflag : ∀ press : Bool,
      ((if press then 0 else keyeventfKeyup) &&& keyeventfKeyup == 0) = press := by decide
  exact congrArg (Switch.mk · e.code.toUInt16) (hflag e.press)

/-- So does a request. -/
theorem KeyEvent.toSwitch_toFakeInput (e : KeyEvent) :
    e.toFakeInput.toSwitch = some ⟨e.press, e.code.toUInt8⟩ := by
  obtain ⟨code, press⟩ := e
  cases press <;> rfl

/-- An error stays whatever is requested. -/
theorem Xcb.Documented.requests_error {γ : Type*} {xcb : Xcb γ} (h : xcb.Documented) {conn : γ}
    (herror : xcb.hasError conn = true) (events : List KeyEvent) :
    xcb.hasError (events.foldl (fun conn e => xcb.testFakeInput conn e.toFakeInput) conn) =
      true := by
  induction events generalizing conn with
  | nil => exact herror
  | cons e events ih => exact ih (h.request_error conn e.toFakeInput herror)

/-- Without an error, requests come behind those before them, written or buffered. -/
theorem Xcb.Documented.requests {γ : Type*} {xcb : Xcb γ} (h : xcb.Documented) {conn : γ}
    {events : List KeyEvent} :
    let queued := events.foldl (fun conn e => xcb.testFakeInput conn e.toFakeInput) conn
    xcb.hasError queued = false →
      xcb.written queued ++ xcb.queue queued =
        xcb.written conn ++ xcb.queue conn ++ events.map KeyEvent.toFakeInput := by
  induction events generalizing conn with
  | nil => simp
  | cons e events ih =>
    intro queued hquiet
    have hfirst : xcb.hasError (xcb.testFakeInput conn e.toFakeInput) = false := by
      by_contra herror
      rw [Bool.not_eq_false] at herror
      exact absurd (hquiet.symm.trans (h.requests_error herror events)) (by decide)
    rw [List.map_cons, List.append_cons, ← h.request conn _ hfirst]
    exact ih hquiet

/-- When a dispatch returns and its flush has succeeded, nothing is buffered and its requests have
been written. -/
theorem Xcb.Documented.dispatch {γ : Type*} {xcb : Xcb γ} (h : xcb.Documented) {conn : γ}
    {events : List KeyEvent} (hworks : ∀ result ∈ (xcb.dispatch conn events).2, 0 < result) :
    xcb.written (xcb.dispatch conn events).1 =
        xcb.written conn ++ xcb.queue conn ++ events.map KeyEvent.toFakeInput ∧
      xcb.queue (xcb.dispatch conn events).1 = [] := by
  have hpos := hworks _ (List.mem_singleton_self _)
  obtain ⟨hwritten, hqueue⟩ := h.flush _ hpos
  refine ⟨hwritten.trans (h.requests ?_), hqueue⟩
  by_contra herror
  rw [Bool.not_eq_false] at herror
  exact h.flush_error _ herror hpos

/-- While the connection works nothing stays buffered, and all requests are written in order. -/
theorem Xcb.Documented.after {γ : Type*} {xcb : Xcb γ} (h : xcb.Documented) {conn : γ}
    (hempty : xcb.queue conn = []) {effects : List Effect} (hworks : xcb.Works conn effects) :
    xcb.written (xcb.after conn effects).1 =
        xcb.written conn ++ (keyTrace effects).map KeyEvent.toFakeInput ∧
      xcb.queue (xcb.after conn effects).1 = [] := by
  unfold Xcb.Works Xcb.after at *
  rw [keyTrace]
  generalize keyDispatches effects = dispatches at hworks ⊢
  induction dispatches generalizing conn with
  | nil => exact ⟨(List.append_nil _).symm, hempty⟩
  | cons events dispatches ih =>
    rw [exec_cons] at hworks ⊢
    obtain ⟨hwritten, hqueue⟩ := h.dispatch fun result hmem =>
      hworks result (List.mem_append_left _ hmem)
    obtain ⟨hrest, hend⟩ := ih hqueue fun result hmem =>
      hworks result (List.mem_append_right _ hmem)
    refine ⟨?_, hend⟩
    rw [hrest, hwritten, hempty, List.append_nil, List.flatten_cons, List.map_append,
      List.append_assoc]

/-! ### The key that is held -/

/-- Offsets of the instrument whose codes have the same name are the same. -/
theorem offset_eq_of_name_eq {κ : Type*} {session : Session} {keySink : KeySink}
    (hkey : session.key = some keySink) {name : UInt32 → κ}
    (hlength : session.codeTable.length = numKeys)
    (hnodup : (session.codeTable.map fun code => name (keySink.toCode code)).Nodup)
    {a b : Int32} (ha : 0 ≤ a) (ha' : codeIndex a < numKeys) (hb : 0 ≤ b)
    (hb' : codeIndex b < numKeys) (h : name (session.code a) = name (session.code b)) : a = b := by
  have hcode : ∀ c : Int32, codeIndex c < numKeys →
      (session.codeTable.map fun code => name (keySink.toCode code))[codeIndex c]? =
        some (name (session.code c)) := by
    intro c hc
    rw [← hlength] at hc
    have hat : codeAt session.codeTable c = session.codeTable[codeIndex c] :=
      (List.getElem_eq_getD 0).symm
    rw [List.getElem?_map, List.getElem?_eq_getElem hc, Option.map_some, ← hat, Session.code, hkey]
  have hindex : codeIndex a = codeIndex b := by
    have hbound : codeIndex a < (session.codeTable.map fun code =>
        name (keySink.toCode code)).length := by rwa [List.length_map, hlength]
    refine (List.getElem?_inj hbound hnodup).mp ?_
    rw [hcode a ha', hcode b hb', h]
  rw [codeIndex_of_nonneg ha, codeIndex_of_nonneg hb] at hindex
  have hlow := Int32.le_iff_toInt_le.mp ha
  have hlow' := Int32.le_iff_toInt_le.mp hb
  rw [Int32.toInt_zero] at hlow hlow'
  exact Int32.toInt_inj.mp (by omega)

/-- A keyboard that gets every key event, under names for the codes that tell those of the table
apart, has down the key of the offset that the local tracker holds. -/
theorem key_down_iff {κ : Type*} [DecidableEq κ] {session : Session} {keySink : KeySink}
    (hkey : session.key = some keySink) {name : UInt32 → κ}
    (hlength : session.codeTable.length = numKeys)
    (hnodup : (session.codeTable.map fun code => name (keySink.toCode code)).Nodup)
    {s : LoopState} (hs : s.InTable) (hrunning : s.running = true)
    (hfree : s.localTracker.held = none) (inputs : List LoopInput) {offset : Int32}
    (hlow : 0 ≤ offset) (hhigh : codeIndex offset < numKeys) :
    let result := mainLoop session s inputs
    name (session.code offset) ∈
        active ∅ ((keyTrace result.2).map fun e => ⟨e.press, name e.code⟩) ↔
      result.1.localTracker.pressedNoteOffset = offset := by
  intro result
  have hsome : session.key.isSome = true := by rw [hkey]; rfl
  have halternates := (mainLoop_keys_alternate hsome hrunning hfree inputs).map name
  have hactive : active ∅ ((keyTrace result.2).map fun e => ⟨e.press, name e.code⟩) =
      ((session.heldCode result.1.localTracker).map name).toFinset := by
    have h := halternates.active_eq
    rwa [List.map_map] at h
  have htracker : result.1.localTracker.InTable := (mainLoop_inTable session hs inputs).1 true
  rw [hactive, Option.mem_toFinset, Option.mem_def, Session.heldCode, MonophonyTracker.held]
  split_ifs with hheld
  · rw [Option.map_some, Option.map_some, Option.some.injEq]
    constructor
    · exact offset_eq_of_name_eq hkey hlength hnodup hheld (htracker.held_lt hheld) hlow hhigh
    · intro h
      rw [h]
  · refine iff_of_false (by simp) ?_
    rintro rfl
    exact hheld hlow

/-- Once the loop has ended and the key still held has been released, no key is down. -/
theorem no_key_down {κ : Type*} [DecidableEq κ] {session : Session}
    (hkey : session.key.isSome = true) (name : UInt32 → κ) {s : LoopState}
    (hrunning : s.running = true) (hfree : s.localTracker.held = none) (inputs : List LoopInput) :
    active ∅ ((keyTrace (runMain session s inputs)).map fun e => ⟨e.press, name e.code⟩) = ∅ := by
  have halternates := ((mainLoop_keys_alternate hkey hrunning hfree inputs).append
    (releaseAtShutdown_alternates hkey _)).map name
  have h := halternates.active_eq
  rwa [← List.map_append, ← keyTrace_append, List.map_map] at h

/-! ### Both keyboards -/

/-- When every input is inserted, the keyboard gets every key event. -/
theorem inserted_all {returns : ℕ → ℕ} {effects : List Effect}
    (hreturns : InsertsAll returns effects) :
    inserted returns effects = (keyTrace effects).map KeyEvent.toInput := by
  rw [inserted_eq, keyTrace]
  congr 1
  have hall : ∀ call ∈ (keyDispatches effects).zipIdx, call.1.take (returns call.2) = call.1 :=
    fun call hcall => List.take_of_length_le (hreturns call hcall).ge
  rw [List.flatMap_congr hall, List.flatMap_def, List.zipIdx_map_fst]

/-- What is inserted of all effects is inserted of the first ones. -/
theorem InsertsAll.of_append {returns : ℕ → ℕ} {a b : List Effect}
    (h : InsertsAll returns (a ++ b)) : InsertsAll returns a := by
  intro call hcall
  refine h call ?_
  rw [keyDispatches_append, List.zipIdx_append]
  exact List.mem_append_left _ hcall

/-- The virtual keys after inputs that were all inserted. -/
theorem virtualKeysDown_eq (events : List KeyEvent) :
    virtualKeysDown (events.map KeyEvent.toInput) =
      active ∅ (events.map fun e => ⟨e.press, e.code.toUInt16⟩) := by
  rw [virtualKeysDown, List.map_map]
  exact congrArg (active ∅) (List.map_congr_left fun e _ => e.toSwitch_toInput)

/-- The key codes after requests that have all been received. -/
theorem keycodesDown_eq (events : List KeyEvent) :
    keycodesDown (events.map KeyEvent.toFakeInput) =
      active ∅ (events.map fun e => ⟨e.press, e.code.toUInt8⟩) := by
  rw [keycodesDown, List.filterMap_map, ← List.filterMap_eq_map]
  exact congrArg (active ∅) (List.filterMap_congr fun e _ => e.toSwitch_toFakeInput)

/-- No two keys of the instrument have one virtual key. -/
theorem win32_table_nodup (codeTable : List UInt32)
    (htable : initializeBindTable (some win32KeySink) = some codeTable) :
    (codeTable.map fun code => (win32KeySink.toCode code).toUInt16).Nodup := by
  have hall : ∀ table ∈ initializeBindTable (some win32KeySink),
      (table.map fun code => (win32KeySink.toCode code).toUInt16).Nodup := by decide
  exact hall codeTable htable

/-- The offsets of the instrument are indices of the table. -/
theorem codeIndex_lt_numKeys {offset : Int32} (hlow : 0 ≤ offset) (hhigh : offset < 37) :
    codeIndex offset < numKeys := by
  have hhigh' := Int32.lt_iff_toInt_lt.mp hhigh
  have hlow' := Int32.le_iff_toInt_le.mp hlow
  rw [codeIndex_of_nonneg hlow, numKeys]
  simp only [Int32.toInt_zero, Int32.reduceToInt] at hhigh' hlow'
  omega

/-- **The keyboard of Windows shows the held key.** With `--key-sink`, while `SendInput` inserts
what it is given: after every stream of events, the virtual key of an offset is down if and only if
the local tracker holds that offset, so no two offsets share a key; and none is down at the end. -/
theorem win32_shows_held_key (args : Arguments) {codeTable : List UInt32}
    (htable : initializeBindTable (some win32KeySink) = some codeTable)
    (hkeys : args.keySink = true) (returns : ℕ → ℕ) (inputs : List LoopInput) :
    let session := args.session win32KeySink codeTable
    let result := mainLoop session args.loopStart inputs
    (InsertsAll returns result.2 →
        ∀ offset : Int32, 0 ≤ offset → offset < 37 →
          ((session.code offset).toUInt16 ∈ virtualKeysDown (inserted returns result.2) ↔
            result.1.localTracker.pressedNoteOffset = offset)) ∧
      (InsertsAll returns (runMain session args.loopStart inputs) →
        virtualKeysDown (inserted returns (runMain session args.loopStart inputs)) = ∅) := by
  intro session result
  have hkey : session.key = some win32KeySink := by simp [session, Arguments.session, hkeys]
  constructor
  · intro hreturns offset hlow hhigh
    rw [inserted_all hreturns, virtualKeysDown_eq]
    exact key_down_iff hkey (initializeBindTable_length htable)
      (win32_table_nodup codeTable htable) (loopStart_inTable args) rfl rfl inputs hlow
      (codeIndex_lt_numKeys hlow hhigh)
  · intro hreturns
    rw [inserted_all hreturns, virtualKeysDown_eq]
    exact @no_key_down _ _ session (by rw [hkey]; rfl) _ args.loopStart rfl rfl inputs

/-- The table that `initialize_bind_table` makes on Windows. -/
def win32Table : List UInt32 := (initializeBindTable (some win32KeySink)).getD []

/-- There is one. -/
theorem initializeBindTable_win32 : initializeBindTable (some win32KeySink) = some win32Table := by
  decide

/-- The arguments of a player who only asks for keys. -/
def keyArguments : Arguments := { keySink := true }

/-- The first key and then the third are pressed: the second dispatch has two inputs, and the one
after the end one. The third key of Windows is C. -/
theorem win32_shows_held_key_third :
    67 ∈ virtualKeysDown (inserted (fun i => if i = 1 then 2 else 1)
        (mainLoop (keyArguments.session win32KeySink win32Table) keyArguments.loopStart
          [⟨⟨36, true⟩, 1⟩, ⟨⟨38, true⟩, 1⟩]).2) ∧
      virtualKeysDown (inserted (fun i => if i = 1 then 2 else 1)
        (runMain (keyArguments.session win32KeySink win32Table) keyArguments.loopStart
          [⟨⟨36, true⟩, 1⟩, ⟨⟨38, true⟩, 1⟩])) = ∅ := by
  have hcode : ((keyArguments.session win32KeySink win32Table).code 2).toUInt16 = 67 := by decide
  have hheld : (mainLoop (keyArguments.session win32KeySink win32Table) keyArguments.loopStart
      [⟨⟨36, true⟩, 1⟩, ⟨⟨38, true⟩, 1⟩]).1.localTracker.pressedNoteOffset = 2 := by decide
  have hreturns : InsertsAll (fun i => if i = 1 then 2 else 1)
      (runMain (keyArguments.session win32KeySink win32Table) keyArguments.loopStart
        [⟨⟨36, true⟩, 1⟩, ⟨⟨38, true⟩, 1⟩]) := by
    unfold InsertsAll
    decide
  obtain ⟨hshows, hend⟩ := win32_shows_held_key keyArguments initializeBindTable_win32 rfl
    (fun i => if i = 1 then 2 else 1) [⟨⟨36, true⟩, 1⟩, ⟨⟨38, true⟩, 1⟩]
  rw [← hcode]
  exact ⟨(hshows hreturns.of_append 2 (by decide) (by decide)).mpr hheld, hend hreturns⟩

/-- **So does the keyboard of X**, where the layout of the server has different key codes for the
37 keys, while the connection works: and after every event all requests have been written to the
server, however many of them its queue had room for. -/
theorem xcb_shows_held_key (args : Arguments) (syms : UInt32 → Option (List UInt8))
    {codeTable : List UInt32}
    (htable : initializeBindTable (some (xcbKeySink syms)) = some codeTable)
    (hdistinct : (codeTable.map UInt32.toUInt8).Nodup) (hkeys : args.keySink = true)
    {γ : Type*} {xcb : Xcb γ} (hxcb : xcb.Documented) {conn : γ} (hempty : xcb.queue conn = [])
    (hnew : xcb.written conn = []) (inputs : List LoopInput) :
    let session := args.session (xcbKeySink syms) codeTable
    let result := mainLoop session args.loopStart inputs
    (xcb.Works conn result.2 →
        xcb.queue (xcb.after conn result.2).1 = [] ∧
        ∀ offset : Int32, 0 ≤ offset → offset < 37 →
          ((session.code offset).toUInt8 ∈
              keycodesDown (xcb.written (xcb.after conn result.2).1) ↔
            result.1.localTracker.pressedNoteOffset = offset)) ∧
      (xcb.Works conn (runMain session args.loopStart inputs) →
        keycodesDown
          (xcb.written (xcb.after conn (runMain session args.loopStart inputs)).1) = ∅) := by
  intro session result
  have hkey : session.key = some (xcbKeySink syms) := by
    simp [session, Arguments.session, hkeys]
  have hname : ∀ code, ((xcbKeySink syms).toCode code).toUInt8 = code.toUInt8 := fun code =>
    UInt8.toUInt8_toUInt32 code.toUInt8
  have hnodup : (codeTable.map fun code => ((xcbKeySink syms).toCode code).toUInt8).Nodup := by
    simpa only [hname] using hdistinct
  constructor
  · intro hworks
    obtain ⟨hwritten, hqueue⟩ := hxcb.after hempty hworks
    refine ⟨hqueue, fun offset hlow hhigh => ?_⟩
    rw [hwritten, hnew, List.nil_append, keycodesDown_eq]
    exact key_down_iff hkey (initializeBindTable_length htable) hnodup
      (loopStart_inTable args) rfl rfl inputs hlow (codeIndex_lt_numKeys hlow hhigh)
  · intro hworks
    obtain ⟨hwritten, -⟩ := hxcb.after hempty hworks
    rw [hwritten, hnew, List.nil_append, keycodesDown_eq]
    exact @no_key_down _ _ session (by rw [hkey]; rfl) _ args.loopStart rfl rfl inputs

/-- A layout whose key codes are the characters themselves. -/
def characterLayout (c : UInt32) : Option (List UInt8) := some [c.toUInt8, 0]

/-- The table that `initialize_bind_table` makes of it. -/
def characterTable : List UInt32 :=
  (initializeBindTable (some (xcbKeySink characterLayout))).getD []

/-- There is one. -/
theorem initializeBindTable_character :
    initializeBindTable (some (xcbKeySink characterLayout)) = some characterTable := by
  decide

/-- Connections that do not fail, whose queue has room for one request: the requests that are
buffered, and those that are written. -/
def smallXcb : Xcb (List FakeInput × List FakeInput) where
  testFakeInput conn r := if conn.1 = [] then ([r], conn.2) else ([r], conn.2 ++ conn.1)
  flush conn := (([], conn.2 ++ conn.1), 1)
  hasError _ := false
  queue := Prod.fst
  written := Prod.snd

/-- They are connections of libxcb. -/
theorem smallXcb_documented : smallXcb.Documented where
  request := by
    rintro ⟨queue, written⟩ r -
    simp only [smallXcb]
    split_ifs with hempty
    · rw [hempty, List.append_nil]
    · rfl
  request_error := by simp [smallXcb]
  flush := by simp [smallXcb]
  flush_error := by simp [smallXcb]

/-- They work all the time. -/
theorem smallXcb_works (effects : List Effect) : smallXcb.Works ([], []) effects := by
  refine exec_invariant (fun _ results => ∀ result ∈ results, (0 : Int32) < result) ?_ (by simp) _
  intro conn results events hbefore result hmem
  rcases List.mem_append.mp hmem with hmem | hmem
  · exact hbefore result hmem
  · obtain rfl : result = 1 := List.mem_singleton.mp hmem
    decide

/-- The first key and then the third are pressed, and the queue has no room for the second request
of the second dispatch. In this layout the third key is a lower-case C. -/
theorem xcb_shows_held_key_third :
    99 ∈ keycodesDown (smallXcb.written (smallXcb.after ([], [])
        (mainLoop (keyArguments.session (xcbKeySink characterLayout) characterTable)
          keyArguments.loopStart [⟨⟨36, true⟩, 1⟩, ⟨⟨38, true⟩, 1⟩]).2).1) ∧
      keycodesDown (smallXcb.written (smallXcb.after ([], [])
        (runMain (keyArguments.session (xcbKeySink characterLayout) characterTable)
          keyArguments.loopStart [⟨⟨36, true⟩, 1⟩, ⟨⟨38, true⟩, 1⟩])).1) = ∅ := by
  have hcode :
      ((keyArguments.session (xcbKeySink characterLayout) characterTable).code 2).toUInt8 = 99 := by
    decide
  have hheld : (mainLoop (keyArguments.session (xcbKeySink characterLayout) characterTable)
      keyArguments.loopStart
        [⟨⟨36, true⟩, 1⟩, ⟨⟨38, true⟩, 1⟩]).1.localTracker.pressedNoteOffset = 2 := by decide
  have hqueue : smallXcb.queue ([], []) = [] := rfl
  have hwritten : smallXcb.written ([], []) = [] := rfl
  obtain ⟨hshows, hend⟩ := xcb_shows_held_key keyArguments characterLayout
    initializeBindTable_character (by decide) rfl smallXcb_documented hqueue hwritten
      [⟨⟨36, true⟩, 1⟩, ⟨⟨38, true⟩, 1⟩]
  rw [← hcode]
  exact ⟨((hshows (smallXcb_works _)).2 2 (by decide) (by decide)).mpr hheld,
    hend (smallXcb_works _)⟩

/-- **Only a lost release leaves a key down.** Whatever `SendInput` inserts of each dispatch, a
virtual key that is down after the end of the program is one of which a release was lost. -/
theorem win32_stuck_key_lost (args : Arguments) (keySink : KeySink) (codeTable : List UInt32)
    (hkeys : args.keySink = true) (returns : ℕ → ℕ) (inputs : List LoopInput) {vk : UInt16} :
    let effects := runMain (args.session keySink codeTable) args.loopStart inputs
    vk ∈ virtualKeysDown (inserted returns effects) →
      ∃ e ∈ lost returns effects, e.press = false ∧ e.code.toUInt16 = vk := by
  intro effects hdown
  let switch (e : KeyEvent) : Switch UInt16 := ⟨e.press, e.code.toUInt16⟩
  let part (call : List KeyEvent × ℕ) : List (Switch UInt16) × List (Switch UInt16) :=
    ((call.1.take (returns call.2)).map switch, (call.1.drop (returns call.2)).map switch)
  have hsubset := active_arrived_subset (Finset.Subset.refl ∅)
    ((keyDispatches effects).zipIdx.map part)
  rw [List.flatMap_map, List.flatMap_map, List.flatMap_map] at hsubset
  have harrived : virtualKeysDown (inserted returns effects) =
      active ∅ ((keyDispatches effects).zipIdx.flatMap fun call => (part call).1) := by
    rw [inserted_eq, virtualKeysDown_eq, List.map_flatMap]
  have hwhole : active ∅ ((keyDispatches effects).zipIdx.flatMap fun call =>
      (part call).1 ++ (part call).2) = ∅ := by
    have hcall : ∀ call : List KeyEvent × ℕ,
        (part call).1 ++ (part call).2 = call.1.map switch := fun call => by
      rw [← List.map_append, List.take_append_drop]
    have hkey : (args.session keySink codeTable).key.isSome = true := by
      simp [Arguments.session, hkeys]
    simp only [hcall]
    rw [← List.map_flatMap, List.flatMap_def, List.zipIdx_map_fst]
    exact no_key_down hkey _ rfl rfl inputs
  rw [harrived] at hdown
  have hmem := hsubset hdown
  rw [hwhole, Finset.empty_union, ← List.map_flatMap, mem_released] at hmem
  obtain ⟨s, hs, hoff, rfl⟩ := hmem
  obtain ⟨e, he, rfl⟩ := List.mem_map.mp hs
  exact ⟨e, he, hoff, rfl⟩

/-- Nothing of the second dispatch is inserted: the first key stays down. -/
theorem win32_stuck_key_lost_first :
    ∃ e ∈ lost (fun i => if i = 1 then 0 else 1)
        (runMain (keyArguments.session win32KeySink win32Table) keyArguments.loopStart
          [⟨⟨36, true⟩, 1⟩, ⟨⟨38, true⟩, 1⟩]),
      e.press = false ∧ e.code.toUInt16 = 65 := by
  have hdown : 65 ∈ virtualKeysDown (inserted (fun i => if i = 1 then 0 else 1)
      (runMain (keyArguments.session win32KeySink win32Table) keyArguments.loopStart
        [⟨⟨36, true⟩, 1⟩, ⟨⟨38, true⟩, 1⟩])) := by decide
  have h := @win32_stuck_key_lost keyArguments win32KeySink win32Table rfl
    (fun i => if i = 1 then 0 else 1) [⟨⟨36, true⟩, 1⟩, ⟨⟨38, true⟩, 1⟩] 65
  exact h hdown

end Sussybard

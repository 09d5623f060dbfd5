import Mathlib.Data.List.Basic

/-!
# Key sinks and the bind table

`KeySink` translates characters to key codes and injects key events; there is
one version for XCB and one for Win32. `initialize_bind_table` asks it for the
code of each of the 37 keys of a bard instrument.
-/

namespace Sussybard

/-- `num_octaves`: the range of a bard instrument. -/
def numOctaves : Int32 := 3

/-- `num_keys`: three octaves, and high C is also included. -/
def numKeys : ℕ := 3 * 12 + 1

/-- `KeySink::Event`. The code has the width that the platform gives it. -/
structure KeyEvent where
  /-- `code` -/
  code : UInt32
  /-- `press` -/
  press : Bool
  deriving DecidableEq, Repr

/-- What the main program needs to know of a platform's `KeySink`. -/
structure KeySink where
  /-- `translate_key`; no result where the call ends the process. -/
  translateKey : UInt32 → Option UInt32
  /-- The conversion of a table entry to the type of `Event::code`. -/
  toCode : UInt32 → UInt32

/-- `get_keycode` of the XCB sink, from the zero-terminated array that
`xcb_key_symbols_get_keycode` returns, or from its null pointer. -/
def getKeycode : Option (List UInt8) → Option UInt8
  | none => none
  | some codes =>
      if codes.getD 0 0 = 0 then none
      else if codes.getD 1 0 ≠ 0 then none
      else some (codes.getD 0 0)

/-- The XCB sink, whose key codes are bytes, over the server's key symbols. -/
def xcbKeySink (syms : UInt32 → Option (List UInt8)) : KeySink where
  translateKey c := (getKeycode (syms c)).map UInt8.toUInt32
  toCode code := code.toUInt8.toUInt32

/-- `translate_key` of the Win32 sink: letters in upper case, the comma as `VK_OEM_COMMA`. -/
def win32TranslateKey (key : UInt32) : UInt32 :=
  if 97 ≤ key ∧ key ≤ 122 then key - 32
  else if key = 44 then 0xBC
  else key

/-- The Win32 sink. -/
def win32KeySink : KeySink where
  translateKey key := some (win32TranslateKey key)
  toCode code := code

/-- The characters that the loop of `initialize_bind_table` binds in round `i`. -/
def bindKeys (i : ℕ) : List UInt32 :=
  if i + 1 = numKeys then [44]
  else if 97 + i ≤ 122 then [UInt32.ofNat (97 + i)]
  else if 122 - 97 < i then [UInt32.ofNat (48 + i - (122 - 97 + 1))]
  else []

/-- `initialize_bind_table`; no table where a translation ends the process. -/
def initializeBindTable : Option KeySink → Option (List UInt32)
  | some key => ((List.range numKeys).flatMap bindKeys).mapM key.translateKey
  | none => some (List.replicate numKeys 0)

/-- `code_table[index]`. The `int` index becomes a `size_t`; an index that is out of
bounds means nothing in the source and reads 0 here. -/
def codeAt (codeTable : List UInt32) (index : Int32) : UInt32 :=
  codeTable.getD index.toInt64.toUInt64.toNat 0

end Sussybard

import Mathlib.Data.List.Basic

/-!
# Buffers and the pointers that write them

A buffer is a list of cells. A store outside of it is an error, `none`, so that
a program that returns has stayed within its buffer. A cursor is a pointer into
a buffer that moves as it writes. What is put through a cursor bit by bit is put
at once, and replaces exactly as many cells.
-/

namespace Buffer

variable {α : Type*}

/-- `buffer[i] = x` -/
def store (buffer : List α) (i : ℕ) (x : α) : Option (List α) :=
  if i < buffer.length then some (buffer.set i x) else none

/-- The entries of a list stored one after the other from a position on. -/
def storeAll (buffer : List α) (i : ℕ) : List α → Option (List α)
  | [] => some buffer
  | x :: xs => (store buffer i x).bind fun buffer => storeAll buffer (i + 1) xs

/-- Storing nothing. -/
@[simp] theorem storeAll_nil (buffer : List α) (i : ℕ) : storeAll buffer i [] = some buffer := rfl

/-- Storing one entry. -/
theorem storeAll_singleton (buffer : List α) (i : ℕ) (x : α) :
    storeAll buffer i [x] = store buffer i x := by
  simp [storeAll]

/-- Storing one list after another is storing both. -/
theorem storeAll_append (buffer : List α) (i : ℕ) (xs ys : List α) :
    storeAll buffer i (xs ++ ys) =
      (storeAll buffer i xs).bind fun buffer => storeAll buffer (i + xs.length) ys := by
  induction xs generalizing buffer i with
  | nil => rfl
  | cons x xs ih =>
    simp only [List.cons_append, storeAll, List.length_cons, Option.bind_assoc]
    congr 1
    funext buffer'
    rw [ih, Nat.add_assoc, Nat.add_comm 1]

/-- Stores within the buffer succeed. They replace the cells they are made to, and leave every
other cell alone. -/
theorem storeAll_eq (buffer : List α) (i : ℕ) (xs : List α)
    (hfits : i + xs.length ≤ buffer.length) :
    storeAll buffer i xs = some (buffer.take i ++ xs ++ buffer.drop (i + xs.length)) := by
  induction xs generalizing buffer i with
  | nil => simp
  | cons x xs ih =>
    simp only [List.length_cons] at hfits
    have hlt : i < buffer.length := by omega
    rw [storeAll, store, if_pos hlt, Option.bind_some, ih _ _ (by rw [List.length_set]; omega)]
    have htake : (buffer.set i x).take (i + 1) = buffer.take i ++ [x] := by
      rw [List.take_succ_eq_append_getElem (by rw [List.length_set]; omega),
        List.take_set_of_le (Nat.le_refl _), List.getElem_set_self]
    rw [htake, List.drop_set_of_lt (by omega), List.length_cons, List.append_assoc,
      List.append_assoc, List.append_assoc, Nat.add_assoc, Nat.add_comm 1]
    rfl

/-- A buffer with a pointer into it. -/
structure Cursor (α : Type*) where
  /-- The cells. -/
  buffer : List α
  /-- Where the pointer stands. -/
  pos : ℕ

/-- The cursor at the first cell. -/
def Cursor.start (buffer : List α) : Cursor α := ⟨buffer, 0⟩

/-- Stores at an offset from the pointer, which stays. -/
def Cursor.storeAt (c : Cursor α) (offset : ℕ) (xs : List α) : Option (Cursor α) :=
  (storeAll c.buffer (c.pos + offset) xs).map fun buffer => ⟨buffer, c.pos⟩

/-- `p += n` -/
def Cursor.advance (c : Cursor α) (n : ℕ) : Cursor α := ⟨c.buffer, c.pos + n⟩

/-- `*p++ = x` for each entry of a list. -/
def Cursor.put (c : Cursor α) (xs : List α) : Option (Cursor α) :=
  (c.storeAt 0 xs).map fun c => c.advance xs.length

/-- Putting nothing. -/
@[simp] theorem Cursor.put_nil (c : Cursor α) : c.put [] = some c := rfl

/-- Putting one list after another is putting both. -/
theorem Cursor.put_append (c : Cursor α) (xs ys : List α) :
    c.put (xs ++ ys) = (c.put xs).bind fun c => c.put ys := by
  simp only [put, storeAt, storeAll_append, Option.map_map, Nat.add_zero]
  cases storeAll c.buffer c.pos xs with
  | none => rfl
  | some buffer =>
    simp only [Option.bind_some, Option.map_some, Function.comp_apply, advance, List.length_append]
    cases storeAll buffer (c.pos + xs.length) ys with
    | none => rfl
    | some buffer' => simp only [Option.map_some, Function.comp_apply, Nat.add_assoc]

/-- Putting one entry and then the others. -/
theorem Cursor.put_cons (c : Cursor α) (x : α) (xs : List α) :
    c.put (x :: xs) = (c.put [x]).bind fun c => c.put xs :=
  c.put_append [x] xs

/-- Two blocks stored side by side are put one after the other. -/
theorem Cursor.storeAt_storeAt (c : Cursor α) (xs ys : List α) :
    ((c.storeAt 0 xs).bind fun c => (c.storeAt xs.length ys).map fun c =>
      c.advance (xs.length + ys.length)) = c.put (xs ++ ys) := by
  simp only [put, storeAt, storeAll_append, Nat.add_zero]
  cases storeAll c.buffer c.pos xs with
  | none => rfl
  | some buffer =>
    simp only [Option.map_some, Option.bind_some, List.length_append]

/-- A caller that moves its own pointer past what was put is where the put left off. -/
theorem Cursor.put_advance (c : Cursor α) (xs : List α) :
    ((c.put xs).map fun written => (⟨written.buffer, c.pos⟩ : Cursor α).advance xs.length) =
      c.put xs := by
  simp only [put, storeAt, Nat.add_zero]
  cases storeAll c.buffer c.pos xs with
  | none => rfl
  | some buffer => rfl

/-- Where there is room, what was put can be told apart. -/
theorem Cursor.put_inj (c : Cursor α) {xs ys : List α} (heq : xs.length = ys.length)
    (hroom : c.pos + xs.length ≤ c.buffer.length) : c.put xs = c.put ys ↔ xs = ys := by
  constructor
  · intro hput
    rw [put, put, storeAt, storeAt, storeAll_eq _ _ _ (by omega), storeAll_eq _ _ _ (by omega)]
      at hput
    simp only [Option.map_some, advance, Option.some.injEq, Cursor.mk.injEq, heq,
      List.append_cancel_right_eq, List.append_cancel_left_eq] at hput
    exact hput.1
  · rintro rfl
    rfl

/-- What is put at the front of a buffer that has room becomes its front. -/
theorem Cursor.put_start (buffer xs : List α) (hfits : xs.length ≤ buffer.length) :
    (Cursor.start buffer).put xs = some ⟨xs ++ buffer.drop xs.length, xs.length⟩ := by
  rw [put, storeAt, storeAll_eq _ _ _ (by simpa [start] using hfits)]
  simp [advance, start]

end Buffer

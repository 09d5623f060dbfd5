import Sussybard.Routing

/-!
# Indexing the key table

`code_table` has one entry for each key of the instrument, and `handle_note` and
the release after the loop index it with offsets. An offset is in a window of at
most that many keys when it is made, wherever the window lies and however the
`int` arithmetic wraps, and it may be read much later. The invariant therefore
speaks of the offset that a tracker holds as well as of its window.
-/

namespace Sussybard

open Transducer

/-! ### The table -/

/-- Each round of the loop of `initialize_bind_table` binds one key. -/
theorem bindKeys_length (i : ℕ) : (bindKeys i).length = 1 := by
  unfold bindKeys
  split_ifs with hcomma hletter hdigit
  · rfl
  · rfl
  · rfl
  · omega

/-- A translation that succeeds for all elements of a list gives a list of that length. -/
theorem length_of_mapM {α β : Type*} {f : α → Option β} {xs : List α} {ys : List β}
    (hmap : xs.mapM f = some ys) : ys.length = xs.length := by
  induction xs generalizing ys with
  | nil =>
    obtain rfl : [] = ys := by simpa using hmap
    rfl
  | cons x xs ih =>
    rw [List.mapM_cons, Option.bind_eq_bind, Option.bind_eq_some_iff] at hmap
    obtain ⟨y, -, hrest⟩ := hmap
    obtain ⟨rest, hxs, hys⟩ := Option.bind_eq_some_iff.mp hrest
    obtain rfl := Option.some.inj hys
    rw [List.length_cons, List.length_cons, ih hxs]

/-- A table has an entry for each key, with a key sink and without. -/
theorem initializeBindTable_length {key : Option KeySink} {codeTable : List UInt32}
    (htable : initializeBindTable key = some codeTable) : codeTable.length = numKeys := by
  cases key with
  | none =>
    obtain rfl := Option.some.inj htable
    exact List.length_replicate
  | some key =>
    rw [length_of_mapM htable, List.length_flatMap]
    simp only [bindKeys_length, List.map_const', List.length_range, List.sum_replicate]
    rfl

/-- The position in the table that an `int` index stands for, as a `size_t`. -/
def codeIndex (index : Int32) : ℕ := index.toInt64.toUInt64.toNat

/-- An index that is not negative stands for itself. -/
theorem codeIndex_of_nonneg {index : Int32} (hindex : 0 ≤ index) :
    codeIndex index = index.toInt.toNat := by
  have hwide : 0 ≤ index.toInt64 := by
    rw [Int64.le_iff_toInt_le, Int32.toInt_toInt64]
    exact Int32.le_iff_toInt_le.mp hindex
  rw [codeIndex, Int64.toNat_toUInt64_of_le hwide, Int64.toNatClampNeg, Int32.toInt_toInt64]

/-! ### The trackers -/

/-- A tracker whose window spans 1 to 37 keys and that holds none or one of them. -/
structure MonophonyTracker.InTable (tracker : MonophonyTracker) : Prop where
  /-- The window is not empty. -/
  one_le_range : 1 ≤ tracker.range.toInt
  /-- The window is no longer than the table. -/
  range_le : tracker.range.toInt ≤ numKeys
  /-- The offset held is one of the window. -/
  settled : tracker.Settled

/-- Every event keeps a tracker in the table. -/
theorem MonophonyTracker.InTable.next {tracker : MonophonyTracker} (h : tracker.InTable)
    (event : NoteEvent) : (tracker.next event).InTable where
  one_le_range := by rw [next_range]; exact h.one_le_range
  range_le := by rw [next_range]; exact h.range_le
  settled := h.settled.next event

/-- A tracker whose window is that of some number of octaves starts in the table. -/
theorem inTable_of_octaves {tracker : MonophonyTracker} {octaves : Octaves}
    (hrange : tracker.range = octaves.range) (hfree : tracker.pressedNoteOffset = -1) :
    tracker.InTable where
  one_le_range := by
    have hlow := Int32.le_iff_toInt_le.mp octaves.property.1
    rw [hrange, octaves.range_toInt]
    simp only [Int32.toInt_zero] at hlow
    omega
  range_le := by
    rw [hrange]
    exact octaves.range_le
  settled := Or.inl hfree

/-- An index of a window is one of the table. -/
theorem MonophonyTracker.InTable.codeIndex_lt {tracker : MonophonyTracker} (h : tracker.InTable)
    {index : Int32} (hlow : 0 ≤ index) (hhigh : index < tracker.range) :
    codeIndex index < numKeys := by
  have hlow' := Int32.le_iff_toInt_le.mp hlow
  have hhigh' := Int32.lt_iff_toInt_lt.mp hhigh
  have hrange := h.range_le
  rw [codeIndex_of_nonneg hlow]
  simp only [Int32.toInt_zero] at hlow'
  omega

/-- The offset that a tracker in the table holds is an index of the table. -/
theorem MonophonyTracker.InTable.held_lt {tracker : MonophonyTracker} (h : tracker.InTable)
    (hheld : 0 ≤ tracker.pressedNoteOffset) : codeIndex tracker.pressedNoteOffset < numKeys := by
  rcases h.settled with hfree | ⟨hlow, hhigh⟩
  · rw [hfree] at hheld
    exact absurd hheld (by decide)
  · exact h.codeIndex_lt hlow hhigh

/-! ### The reads -/

@[simp] theorem codeReads_append (a b : List Effect) :
    codeReads (a ++ b) = codeReads a ++ codeReads b := List.filterMap_append

/-- Dispatching key events reads nothing. -/
@[simp] theorem codeReads_dispatchKeys (session : Session) (isLocal : Bool)
    (keyEvents : List KeyEvent) : codeReads (dispatchKeys session isLocal keyEvents) = [] := by
  unfold dispatchKeys
  split_ifs
  · rfl
  · rfl

/-- All reads of the table among some effects are in bounds. -/
def ReadsInTable (effects : List Effect) : Prop :=
  ∀ index ∈ codeReads effects, codeIndex index < numKeys

/-- Effects without a read do not read out of bounds. -/
theorem readsInTable_nil : ReadsInTable [] := nofun

/-- Reads are in bounds one after the other. -/
theorem ReadsInTable.append {a b : List Effect} (ha : ReadsInTable a) (hb : ReadsInTable b) :
    ReadsInTable (a ++ b) := by
  intro index hindex
  rw [codeReads_append, List.mem_append] at hindex
  exact hindex.elim (ha index) (hb index)

/-- A call reads the table in bounds: at the offset of its note, and at the one that is held. -/
theorem readsInTable_handleNote {session : Session} {event : NoteEvent}
    {tracker : MonophonyTracker} {isLocal : Bool} (h : tracker.InTable) :
    ReadsInTable (handleNote session event tracker isLocal).2.2 := by
  have hhandled := handleNote_spec session event tracker isLocal
  generalize handleNote session event tracker isLocal = r at hhandled ⊢
  intro index hindex
  cases hhandled with
  | outside _ | doubleTap _ _ _ | releaseOther _ _ _ => simp [codeReads] at hindex
  | firstPress hin _ _ =>
    obtain ⟨hlow, hhigh⟩ := noteIsInRange_iff.mp hin
    rw [codeReads_append, codeReads_dispatchKeys, List.append_nil] at hindex
    obtain rfl : index = event.note - tracker.baseKey := by simpa [codeReads] using hindex
    exact h.codeIndex_lt hlow hhigh
  | pressOver hin _ _ hheld =>
    obtain ⟨hlow, hhigh⟩ := noteIsInRange_iff.mp hin
    rw [codeReads_append, codeReads_dispatchKeys, List.append_nil] at hindex
    have hreads : index = tracker.pressedNoteOffset ∨ index = event.note - tracker.baseKey := by
      simpa [codeReads] using hindex
    rcases hreads with rfl | rfl
    · exact h.held_lt hheld
    · exact h.codeIndex_lt hlow hhigh
  | releaseHeld hin _ hheld =>
    obtain ⟨hlow, hhigh⟩ := noteIsInRange_iff.mp hin
    rw [codeReads_append, codeReads_dispatchKeys, List.append_nil] at hindex
    obtain rfl : index = tracker.pressedNoteOffset := by simpa [codeReads] using hindex
    rw [hheld]
    exact h.codeIndex_lt hlow hhigh

/-! ### A run -/

/-- Both trackers are in the table. -/
def LoopState.InTable (s : LoopState) : Prop := ∀ isLocal, (s.tracker isLocal).InTable

/-- It is enough to know it of either. -/
theorem inTable_of_trackers {s : LoopState} (hlocal : s.localTracker.InTable)
    (hremote : s.remoteTracker.InTable) : s.InTable := by
  intro isLocal
  cases isLocal with
  | true => exact hlocal
  | false => exact hremote

/-- `main` starts the loop with both trackers in the table, whatever it was asked for. -/
theorem loopStart_inTable (args : Arguments) : args.loopStart.InTable :=
  inTable_of_trackers (@inTable_of_octaves _ (clampOctaves args.numActiveOctaves) rfl rfl)
    (@inTable_of_octaves _ (clampOctaves args.numActiveOctavesUdp) rfl rfl)

/-- One round keeps both trackers in the table, and reads it in bounds. -/
theorem Round.inTable {session : Session} {s : LoopState} {input : LoopInput}
    {r : LoopState × List Effect} (h : Round session s input r) (hs : s.InTable) :
    r.1.InTable ∧ ReadsInTable r.2 := by
  have hlocal : s.localTracker.InTable := hs true
  have hremote : s.remoteTracker.InTable := hs false
  have hsend : ∀ call, ReadsInTable [.send call] := fun _ => nofun
  cases h with
  | stopped _ => exact ⟨hs, readsInTable_nil⟩
  | sendFailed _ _ _ _ => exact ⟨inTable_of_trackers hlocal hremote, hsend _⟩
  | mirrored _ _ _ _ =>
    refine ⟨inTable_of_trackers hlocal (hremote.next _), ?_⟩
    exact (hsend _).append (readsInTable_handleNote hremote)
  | localOnly _ _ _ =>
    exact ⟨inTable_of_trackers (hlocal.next _) hremote, readsInTable_handleNote hlocal⟩
  | both _ _ =>
    refine ⟨inTable_of_trackers (hlocal.next _) (hremote.next _), ?_⟩
    exact (readsInTable_handleNote hremote).append (readsInTable_handleNote hlocal)

/-- So does the whole loop. -/
theorem mainLoop_inTable (session : Session) {s : LoopState} (hs : s.InTable)
    (inputs : List LoopInput) :
    (mainLoop session s inputs).1.InTable ∧ ReadsInTable (mainLoop session s inputs).2 := by
  refine exec_invariant (fun (s : LoopState) effects => s.InTable ∧ ReadsInTable effects) ?_
    ⟨hs, readsInTable_nil⟩ inputs
  rintro s effects input ⟨hs, hreads⟩
  obtain ⟨hnext, hround⟩ := (iterate_spec session s input).inTable hs
  exact ⟨hnext, hreads.append hround⟩

/-- The release after the loop reads the table at the offset still held. -/
theorem readsInTable_releaseAtShutdown (session : Session) {s : LoopState} (hs : s.InTable) :
    ReadsInTable (releaseAtShutdown session s) := by
  unfold releaseAtShutdown
  split_ifs with hrelease
  · have hheld : 0 ≤ s.localTracker.pressedNoteOffset := by
      rw [Bool.and_eq_true, decide_eq_true_eq] at hrelease
      exact hrelease.2
    intro index hindex
    obtain rfl : index = s.localTracker.pressedNoteOffset := by simpa [codeReads] using hindex
    exact (hs true).held_lt hheld
  · exact readsInTable_nil

/-- **No index is out of bounds.** For all arguments, with a key sink or without, and every stream
of events: the table that `initialize_bind_table` produces has 37 entries; after every round each
tracker's window has 1 to 37 keys, and its offset is -1 or one of that window; and every index at
which the table is read, in the loop or after it, is below 37. Sums and differences wrap. -/
theorem key_table_in_bounds (args : Arguments) (keySink : KeySink) {codeTable : List UInt32}
    (htable : initializeBindTable (if args.keySink then some keySink else none) = some codeTable)
    (inputs : List LoopInput) :
    let session := args.session keySink codeTable
    codeTable.length = 37 ∧
      (∀ isLocal,
        let tracker := (mainLoop session args.loopStart inputs).1.tracker isLocal
        (1 ≤ tracker.range.toInt ∧ tracker.range.toInt ≤ 37) ∧
          (tracker.pressedNoteOffset.toInt = -1 ∨
            0 ≤ tracker.pressedNoteOffset.toInt ∧
              tracker.pressedNoteOffset.toInt < tracker.range.toInt)) ∧
      ∀ index ∈ codeReads (runMain session args.loopStart inputs), codeIndex index < 37 := by
  intro session
  obtain ⟨htrackers, hreads⟩ := mainLoop_inTable session (loopStart_inTable args) inputs
  refine ⟨initializeBindTable_length htable, ?_, ?_⟩
  · intro isLocal tracker
    have htracker : tracker.InTable := htrackers isLocal
    refine ⟨⟨htracker.one_le_range, htracker.range_le⟩, ?_⟩
    rcases htracker.settled with hfree | ⟨hlow, hhigh⟩
    · exact Or.inl (by rw [hfree]; decide)
    · exact Or.inr ⟨Int32.le_iff_toInt_le.mp hlow, Int32.lt_iff_toInt_lt.mp hhigh⟩
  · exact hreads.append (readsInTable_releaseAtShutdown session htrackers)

/-- With the keys of Win32, a window whose upper end wraps, and a key that is still down at the
end. -/
theorem key_table_in_bounds_wrapped :
    let args : Arguments := { keySink := true, baseKey := 2147483640, midiTranspose := 2147483640 }
    ∃ codeTable, initializeBindTable (some win32KeySink) = some codeTable ∧
      codeTable.length = 37 ∧
      ∀ index ∈ codeReads (runMain (args.session win32KeySink codeTable) args.loopStart
        [⟨⟨0, true⟩, 0⟩, ⟨⟨36, true⟩, 0⟩]), codeIndex index < 37 := by
  intro args
  obtain ⟨codeTable, htable⟩ : ∃ codeTable,
      initializeBindTable (some win32KeySink) = some codeTable :=
    Option.isSome_iff_exists.mp (by decide)
  have h := key_table_in_bounds args win32KeySink htable [⟨⟨0, true⟩, 0⟩, ⟨⟨36, true⟩, 0⟩]
  exact ⟨codeTable, htable, h.1, h.2.2⟩

end Sussybard

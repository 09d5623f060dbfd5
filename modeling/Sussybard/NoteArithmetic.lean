import Sussybard.Datagrams
import Sussybard.CommandLine

/-!
# The range of the note arithmetic

The main loop, `note_is_in_range` and `handle_note` add and subtract `int`s that
come from the command line, from the source, and from earlier events. Only the
octave counts are clamped. This file lists every such operation that a run
performs, in order, and says in terms of the events and the arguments when each
of them stays in the range of an `int`.
-/

namespace Sussybard

open Numeral

/-- An addition or a subtraction of two `int`s. -/
inductive IntOp where
  | add (a b : Int32)
  | sub (a b : Int32)
  deriving DecidableEq, Repr

/-- The number that an operation stands for. -/
def IntOp.exact : IntOp → ℤ
  | .add a b => a.toInt + b.toInt
  | .sub a b => a.toInt - b.toInt

/-- What the operation gives when it wraps. -/
def IntOp.wrapped : IntOp → Int32
  | .add a b => a + b
  | .sub a b => a - b

/-- A number that an `int` can hold. -/
def FitsInt (x : ℤ) : Prop := -2147483648 ≤ x ∧ x < 2147483648

instance (x : ℤ) : Decidable (FitsInt x) := inferInstanceAs (Decidable (_ ∧ _))

/-- None of the operations overflows. -/
def AllFit (ops : List IntOp) : Prop := ∀ op ∈ ops, FitsInt op.exact

instance (ops : List IntOp) : Decidable (AllFit ops) :=
  inferInstanceAs (Decidable (∀ op ∈ ops, _))

/-! ### The operations -/

/-- The arithmetic of `note_is_in_range`. -/
def MonophonyTracker.noteIsInRangeOps (tracker : MonophonyTracker) (note : Int32) : List IntOp :=
  [.sub note tracker.baseKey]

/-- The arithmetic of `handle_note`. -/
def handleNoteOps (event : NoteEvent) (tracker : MonophonyTracker) : List IntOp :=
  tracker.noteIsInRangeOps event.note ++
    if !tracker.noteIsInRange event.note then []
    else
      let noteOffsetLocal := event.note - tracker.baseKey
      .sub event.note tracker.baseKey ::
        if event.pressed && tracker.pressedNoteOffset == noteOffsetLocal then []
        else
          let releaseHeldKey := event.pressed || tracker.pressedNoteOffset == noteOffsetLocal
          .add event.note tracker.synthTranspose ::
            if releaseHeldKey && decide (0 ≤ tracker.pressedNoteOffset) then
              [.add tracker.pressedNoteOffset tracker.baseKey,
                .add (tracker.pressedNoteOffset + tracker.baseKey) tracker.synthTranspose]
            else []

/-- The arithmetic of one iteration of the main loop. -/
def iterateOps (session : Session) (s : LoopState) (input : LoopInput) : List IntOp :=
  if !s.running then []
  else
    let ev := session.transpose input.event
    let sends := s.remoteTracker.noteIsInRange ev.note && session.udpSink
    let call := UDPSink.send ev.note ev.pressed input.sendRet
    .add input.event.note session.midiTranspose :: s.remoteTracker.noteIsInRangeOps ev.note ++
      if sends && !call.sent then []
      else
        let handled := (handleNote session ev s.remoteTracker false).1
        handleNoteOps ev s.remoteTracker ++
          if !handled || !session.udpSink then handleNoteOps ev s.localTracker else []

/-- The arithmetic of the main loop. -/
def mainLoopOps (session : Session) (s : LoopState) : List LoopInput → List IntOp
  | [] => []
  | input :: inputs =>
    iterateOps session s input ++ mainLoopOps session (iterate session s input).1 inputs

/-! ### The condition -/

/-- A number is in the window of a tracker. -/
def MonophonyTracker.InWindow (tracker : MonophonyTracker) (n : ℤ) : Prop :=
  0 ≤ n - tracker.baseKey.toInt ∧ n - tracker.baseKey.toInt < tracker.range.toInt

/-- What a player's `handle_note` adds and subtracts for a transposed note stays in range: the
offset in the player's window, and if the note is in it, the note that is posted. -/
def MonophonyTracker.NoteFits (tracker : MonophonyTracker) (n : ℤ) : Prop :=
  FitsInt (n - tracker.baseKey.toInt) ∧
    (tracker.InWindow n → FitsInt (n + tracker.synthTranspose.toInt))

/-- The condition on a round: the transposed note and its offset in the remote window stay in
range, and, unless the send fails, so does what each player that is handed the event computes. -/
def Session.RoundFits (session : Session) (remote localTracker : MonophonyTracker)
    (input : LoopInput) : Prop :=
  let n := input.event.note.toInt + session.midiTranspose.toInt
  FitsInt n ∧ FitsInt (n - remote.baseKey.toInt) ∧
    (session.breaks remote input = false → remote.NoteFits n ∧
      (session.mirrors remote input.event = false → localTracker.NoteFits n))

/-! ### Lists of operations -/

/-- An operation that does not overflow gives the number it stands for. -/
theorem IntOp.toInt_wrapped {op : IntOp} (hfits : FitsInt op.exact) :
    op.wrapped.toInt = op.exact := by
  obtain ⟨hlow, hhigh⟩ := hfits
  cases op with
  | add a b =>
    simp only [IntOp.exact, IntOp.wrapped, Int32.toInt_add] at hlow hhigh ⊢
    exact Int.bmod_eq_of_le (by omega) (by omega)
  | sub a b =>
    simp only [IntOp.exact, IntOp.wrapped, Int32.toInt_sub] at hlow hhigh ⊢
    exact Int.bmod_eq_of_le (by omega) (by omega)

/-- An `int` can hold an `int`. -/
theorem fitsInt_toInt (a : Int32) : FitsInt a.toInt := ⟨a.le_toInt, a.toInt_lt⟩

theorem allFit_nil : AllFit [] := nofun

theorem allFit_cons {op : IntOp} {ops : List IntOp} :
    AllFit (op :: ops) ↔ FitsInt op.exact ∧ AllFit ops := List.forall_mem_cons

theorem allFit_append {ops ops' : List IntOp} :
    AllFit (ops ++ ops') ↔ AllFit ops ∧ AllFit ops' := List.forall_mem_append

/-- When the offset does not overflow, `note_is_in_range` decides the window. -/
theorem noteIsInRange_iff_inWindow {tracker : MonophonyTracker} {note : Int32}
    (hfits : FitsInt (note.toInt - tracker.baseKey.toInt)) :
    tracker.noteIsInRange note = true ↔ tracker.InWindow note.toInt := by
  have hoffset : (note - tracker.baseKey).toInt = note.toInt - tracker.baseKey.toInt :=
    @IntOp.toInt_wrapped (.sub note tracker.baseKey) hfits
  rw [noteIsInRange_iff, Int32.le_iff_toInt_le, Int32.lt_iff_toInt_lt, hoffset, Int32.toInt_zero]
  rfl

/-! ### One player -/

/-- The offset that a tracker holds was computed from a note, and the note was posted. -/
def Recorded (past : List IntOp) (tracker : MonophonyTracker) : Prop :=
  0 ≤ tracker.pressedNoteOffset → ∃ note, tracker.pressedNoteOffset = note - tracker.baseKey ∧
    IntOp.sub note tracker.baseKey ∈ past ∧ IntOp.add note tracker.synthTranspose ∈ past

/-- What was recorded stays recorded. -/
theorem Recorded.mono {past past' : List IntOp} {tracker : MonophonyTracker}
    (h : Recorded past tracker) (hsub : past ⊆ past') : Recorded past' tracker := by
  intro hheld
  obtain ⟨note, hnote, hoffset, hpost⟩ := h hheld
  exact ⟨note, hnote, hsub hoffset, hsub hpost⟩

/-- A note is determined by its offset in a window. -/
theorem note_eq_of_offset_eq {a b base : Int32} (h : a - base = b - base) : a = b := by
  grind

/-- A note is its offset and the base key. -/
theorem offset_add_baseKey (note base : Int32) : note - base + base = note := by
  grind

/-- The sums that give back a held note do not overflow when those that led to it did not. -/
theorem held_fits {past : List IntOp} {tracker : MonophonyTracker} (hpast : AllFit past)
    (hrec : Recorded past tracker) (hheld : 0 ≤ tracker.pressedNoteOffset) :
    AllFit [.add tracker.pressedNoteOffset tracker.baseKey,
      .add (tracker.pressedNoteOffset + tracker.baseKey) tracker.synthTranspose] := by
  obtain ⟨note, hnote, hoffset, hpost⟩ := hrec hheld
  have hexact : (note - tracker.baseKey).toInt = note.toInt - tracker.baseKey.toInt :=
    IntOp.toInt_wrapped (hpast _ hoffset)
  rw [hnote, offset_add_baseKey, allFit_cons, allFit_cons]
  refine ⟨?_, hpast _ hpost, allFit_nil⟩
  rw [IntOp.exact, hexact, Int.sub_add_cancel]
  exact fitsInt_toInt note

/-- A call of `handle_note` does not overflow exactly when its note fits the player, given that
nothing overflowed before it. -/
theorem handleNoteOps_fit_iff {past : List IntOp} {tracker : MonophonyTracker}
    (hpast : AllFit past) (hrec : Recorded past tracker) (event : NoteEvent) :
    AllFit (handleNoteOps event tracker) ↔ tracker.NoteFits event.note.toInt := by
  unfold handleNoteOps MonophonyTracker.NoteFits MonophonyTracker.noteIsInRangeOps
  rw [List.singleton_append, allFit_cons]
  refine and_congr_right fun hoffset => ?_
  rw [← noteIsInRange_iff_inWindow hoffset]
  cases hin : tracker.noteIsInRange event.note with
  | false => simpa using allFit_nil
  | true =>
    rw [if_neg (by decide), imp_iff_right rfl]
    dsimp only
    rw [allFit_cons, and_iff_right hoffset]
    by_cases htap :
        (event.pressed && tracker.pressedNoteOffset == event.note - tracker.baseKey) = true
    · rw [if_pos htap]
      -- The press that is repeated has posted the same note.
      obtain ⟨-, hsame⟩ : event.pressed = true ∧
          tracker.pressedNoteOffset = event.note - tracker.baseKey := by simpa using htap
      have hheld : 0 ≤ tracker.pressedNoteOffset := by
        rw [hsame]
        exact (noteIsInRange_iff.mp hin).1
      obtain ⟨note, hnote, -, hpost⟩ := hrec hheld
      obtain rfl := note_eq_of_offset_eq (hsame.symm.trans hnote)
      exact iff_of_true allFit_nil (hpast _ hpost)
    · rw [if_neg htap, allFit_cons]
      refine and_iff_left ?_
      split_ifs with hrelease
      · have hheld : 0 ≤ tracker.pressedNoteOffset := by
          rw [Bool.and_eq_true, decide_eq_true_eq] at hrelease
          exact hrelease.2
        exact held_fits hpast hrec hheld
      · exact allFit_nil

/-- A call of `handle_note` records the offset that the tracker holds after it. -/
theorem recorded_next {past : List IntOp} {tracker : MonophonyTracker}
    (hrec : Recorded past tracker) (event : NoteEvent) :
    Recorded (past ++ handleNoteOps event tracker) (tracker.next event) := by
  have hkept : Recorded (past ++ handleNoteOps event tracker) tracker :=
    hrec.mono (List.subset_append_left _ _)
  unfold MonophonyTracker.next
  split_ifs with hin hpress hheld
  · by_cases htap : tracker.pressedNoteOffset = event.note - tracker.baseKey
    · rw [← htap]
      exact hkept
    · intro _
      refine ⟨event.note, rfl, List.mem_append_right _ ?_, List.mem_append_right _ ?_⟩
      · simp [handleNoteOps, MonophonyTracker.noteIsInRangeOps]
      · simp [handleNoteOps, hin, htap]
  · intro hheld
    exact absurd hheld (show ¬(0 : Int32) ≤ -1 by decide)
  · exact hkept
  · exact hkept

/-! ### One round -/

/-- The arithmetic of a round: the transposed note and its offset in the remote window, and,
unless the send fails, that of the players that are handed the event. -/
theorem iterateOps_eq {session : Session} {s : LoopState} (hrunning : s.running = true)
    (input : LoopInput) :
    let ev := session.transpose input.event
    iterateOps session s input =
      .add input.event.note session.midiTranspose :: .sub ev.note s.remoteTracker.baseKey ::
        if session.breaks s.remoteTracker input then []
        else handleNoteOps ev s.remoteTracker ++
          if session.mirrors s.remoteTracker input.event then []
          else handleNoteOps ev s.localTracker := by
  intro ev
  have hmirrors : (!s.remoteTracker.noteIsInRange ev.note || !session.udpSink) =
      !session.mirrors s.remoteTracker input.event := by
    rw [Session.mirrors, Bool.not_and]
  simp only [iterateOps, hrunning, handleNote_fst, Bool.not_true, Bool.false_eq_true, if_false]
  change _ :: _ :: (if session.breaks s.remoteTracker input then []
    else handleNoteOps ev s.remoteTracker ++
      if !s.remoteTracker.noteIsInRange ev.note || !session.udpSink then
        handleNoteOps ev s.localTracker else []) = _
  rw [hmirrors]
  cases session.mirrors s.remoteTracker input.event with
  | true => rfl
  | false => rfl

/-- A round does not overflow exactly when its condition holds, given that nothing overflowed
before it. -/
theorem iterateOps_fit_iff {past : List IntOp} {session : Session} {s : LoopState}
    (hrunning : s.running = true) (hpast : AllFit past)
    (hrec : ∀ isLocal, Recorded past (s.tracker isLocal)) (input : LoopInput) :
    AllFit (iterateOps session s input) ↔
      session.RoundFits s.remoteTracker s.localTracker input := by
  have hremote := handleNoteOps_fit_iff hpast (hrec false) (session.transpose input.event)
  have hlocal := handleNoteOps_fit_iff hpast (hrec true) (session.transpose input.event)
  rw [iterateOps_eq hrunning, allFit_cons, Session.RoundFits]
  refine and_congr_right fun htransposed => ?_
  have hnote : (session.transpose input.event).note.toInt =
      input.event.note.toInt + session.midiTranspose.toInt :=
    @IntOp.toInt_wrapped (.add input.event.note session.midiTranspose) htransposed
  rw [hnote] at hremote hlocal
  rw [allFit_cons, IntOp.exact, hnote]
  refine and_congr_right fun _ => ?_
  cases session.breaks s.remoteTracker input with
  | true => simpa using allFit_nil
  | false =>
    rw [if_neg (by decide), imp_iff_right rfl, allFit_append]
    refine and_congr hremote ?_
    cases session.mirrors s.remoteTracker input.event with
    | true => simpa using allFit_nil
    | false =>
      rw [if_neg (by decide), imp_iff_right rfl]
      exact hlocal

/-- A round that is not the last one moves the trackers of the players that are handed the event. -/
theorem iterate_tracker {session : Session} {s : LoopState} {input : LoopInput}
    (hrunning : s.running = true) (hbreaks : session.breaks s.remoteTracker input = false)
    (isLocal : Bool) :
    (iterate session s input).1.tracker isLocal =
      if isLocal && session.mirrors s.remoteTracker input.event then s.tracker isLocal
      else (s.tracker isLocal).next (session.transpose input.event) := by
  have htracker := congrArg Prod.fst
    ((iterate_spec session s input).player hrunning hbreaks isLocal)
  split_ifs at htracker ⊢
  · exact htracker
  · exact htracker

/-- The arithmetic of a player that is handed the event is part of the round. -/
theorem handleNoteOps_subset {session : Session} {s : LoopState} {input : LoopInput}
    (hrunning : s.running = true) (hbreaks : session.breaks s.remoteTracker input = false)
    {isLocal : Bool} (hhanded : ¬(isLocal && session.mirrors s.remoteTracker input.event) = true) :
    handleNoteOps (session.transpose input.event) (s.tracker isLocal) ⊆
      iterateOps session s input := by
  rw [iterateOps_eq hrunning, hbreaks, if_neg (by decide)]
  refine List.subset_cons_of_subset _ (List.subset_cons_of_subset _ ?_)
  cases isLocal with
  | false => exact List.subset_append_left _ _
  | true =>
    rw [Bool.true_and] at hhanded
    rw [if_neg hhanded]
    exact List.subset_append_right _ _

/-- A round that is not the last one records the offsets that both trackers hold after it. -/
theorem recorded_iterate {past : List IntOp} {session : Session} {s : LoopState}
    {input : LoopInput} (hrunning : s.running = true)
    (hbreaks : session.breaks s.remoteTracker input = false)
    (hrec : ∀ isLocal, Recorded past (s.tracker isLocal)) (isLocal : Bool) :
    Recorded (past ++ iterateOps session s input)
      ((iterate session s input).1.tracker isLocal) := by
  rw [iterate_tracker hrunning hbreaks]
  split_ifs with hskip
  · exact (hrec isLocal).mono (List.subset_append_left _ _)
  · refine (recorded_next (hrec isLocal) (session.transpose input.event)).mono ?_
    refine List.append_subset.mpr ⟨List.subset_append_left _ _, ?_⟩
    exact List.subset_append_of_subset_right _ (handleNoteOps_subset hrunning hbreaks hskip)

/-! ### A run -/

/-- What fits a player does not depend on what its tracker holds. -/
theorem noteFits_next (tracker : MonophonyTracker) (e : NoteEvent) :
    (tracker.next e).NoteFits = tracker.NoteFits := by
  funext n
  simp only [MonophonyTracker.NoteFits, MonophonyTracker.InWindow, next_baseKey, next_range,
    next_synthTranspose]

/-- Nor does the condition on a round depend on what the remote tracker holds. -/
theorem roundFits_next_remote (session : Session) (remote localTracker : MonophonyTracker)
    (e : NoteEvent) :
    session.RoundFits (remote.next e) localTracker = session.RoundFits remote localTracker := by
  funext input
  unfold Session.RoundFits Session.breaks
  rw [noteFits_next, mirrors_next, next_baseKey]

/-- Nor on what the local tracker holds. -/
theorem roundFits_next_local (session : Session) (remote localTracker : MonophonyTracker)
    (e : NoteEvent) :
    session.RoundFits remote (localTracker.next e) = session.RoundFits remote localTracker := by
  funext input
  unfold Session.RoundFits
  rw [noteFits_next]

/-- So it is the same after a round. -/
theorem Round.roundFits_eq {session : Session} {s : LoopState} {input : LoopInput}
    {r : LoopState × List Effect} (h : Round session s input r) :
    session.RoundFits r.1.remoteTracker r.1.localTracker =
      session.RoundFits s.remoteTracker s.localTracker := by
  cases h with
  | stopped _ | sendFailed _ _ _ _ => rfl
  | mirrored _ _ _ _ => exact roundFits_next_remote _ _ _ _
  | localOnly _ _ _ => exact roundFits_next_local _ _ _ _
  | both _ _ => exact (roundFits_next_remote _ _ _ _).trans (roundFits_next_local _ _ _ _)

/-- After a failing send there is no arithmetic. -/
theorem mainLoopOps_of_stopped {session : Session} {s : LoopState} (hstopped : s.running = false)
    (inputs : List LoopInput) : mainLoopOps session s inputs = [] := by
  induction inputs with
  | nil => rfl
  | cons input inputs ih =>
    have hround : iterateOps session s input = [] := by
      rw [iterateOps, hstopped]
      rfl
    have hstays : (iterate session s input).1 = s := by
      rw [iterate, hstopped]
      rfl
    rw [mainLoopOps, hround, hstays, ih, List.append_nil]

/-- A loop does not overflow exactly when every round that it comes to meets its condition, given
that nothing overflowed before it. -/
theorem mainLoopOps_fit_iff {past : List IntOp} {session : Session} {s : LoopState}
    (hrunning : s.running = true) (hpast : AllFit past)
    (hrec : ∀ isLocal, Recorded past (s.tracker isLocal)) (inputs : List LoopInput) :
    AllFit (mainLoopOps session s inputs) ↔
      ∀ input ∈ session.reached s.remoteTracker inputs,
        session.RoundFits s.remoteTracker s.localTracker input := by
  induction inputs generalizing past s with
  | nil => exact iff_of_true allFit_nil nofun
  | cons input inputs ih =>
    have hround : AllFit (iterateOps session s input) ↔
        session.RoundFits s.remoteTracker s.localTracker input :=
      iterateOps_fit_iff hrunning hpast hrec input
    rw [mainLoopOps, allFit_append, hround]
    cases hbreaks : session.breaks s.remoteTracker input with
    | true =>
      rw [reached_cons_of_breaks hbreaks, List.forall_mem_singleton]
      obtain ⟨call, hcall⟩ := (iterate_spec session s input).of_breaks hrunning hbreaks
      rw [hcall, mainLoopOps_of_stopped rfl]
      exact and_iff_left allFit_nil
    | false =>
      rw [reached_cons hbreaks, List.forall_mem_cons]
      refine and_congr_right fun hfits => ?_
      have hspec := iterate_spec session s input
      have hrest := ih (hspec.running hrunning hbreaks)
        (allFit_append.mpr ⟨hpast, hround.mpr hfits⟩) (recorded_iterate hrunning hbreaks hrec)
      rw [hspec.reached_eq, hspec.roundFits_eq] at hrest
      exact hrest

/-! ### What the operations give -/

/-- The note of a post is the result of one of the sums of its call. -/
theorem exists_op_of_mem_posts {tracker : MonophonyTracker} {isLocal : Bool} {event : NoteEvent}
    {p : NotePost} (hp : p ∈ tracker.posts isLocal event) :
    ∃ op ∈ handleNoteOps event tracker, op.wrapped = p.note := by
  let post : IntOp := .add event.note tracker.synthTranspose
  let postHeld : IntOp :=
    .add (tracker.pressedNoteOffset + tracker.baseKey) tracker.synthTranspose
  cases hin : tracker.noteIsInRange event.note with
  | false => simp [MonophonyTracker.posts, hin] at hp
  | true =>
    have hoffset := (noteIsInRange_iff.mp hin).1
    by_cases hheld : tracker.pressedNoteOffset = event.note - tracker.baseKey
    · cases hpress : event.pressed with
      | true => simp [MonophonyTracker.posts, hin, hheld, hpress] at hp
      | false =>
        have hops : post ∈ handleNoteOps event tracker ∧
            postHeld ∈ handleNoteOps event tracker := by
          simp [handleNoteOps, hin, hheld, hpress, hoffset, post, postHeld]
        simp only [MonophonyTracker.posts, hin, hheld, hpress] at hp
        simp only [Bool.true_eq_false, if_false, if_true, Bool.false_eq_true, List.mem_cons,
          List.not_mem_nil, or_false] at hp
        rcases hp with rfl | rfl
        · exact ⟨post, hops.1, rfl⟩
        · exact ⟨postHeld, hops.2, by simp [postHeld, IntOp.wrapped, hheld]⟩
    · have hpost : post ∈ handleNoteOps event tracker := by
        simp [handleNoteOps, hin, hheld, post]
      simp only [MonophonyTracker.posts, hin, hheld, Bool.true_eq_false, if_false] at hp
      split_ifs at hp with hover
      · have hpostHeld : postHeld ∈ handleNoteOps event tracker := by
          rw [Bool.and_eq_true, decide_eq_true_eq] at hover
          simp [handleNoteOps, hin, hheld, hover, postHeld]
        rcases List.mem_cons.mp hp with rfl | hp
        · exact ⟨post, hpost, rfl⟩
        · obtain rfl := List.mem_singleton.mp hp
          exact ⟨postHeld, hpostHeld, rfl⟩
      · obtain rfl := List.mem_singleton.mp hp
        exact ⟨post, hpost, rfl⟩

/-- So is the note of every post of a round. -/
theorem exists_op_of_mem_iterate {session : Session} {s : LoopState} {input : LoopInput}
    {p : NotePost} (hp : p ∈ notePosts (iterate session s input).2) :
    ∃ op ∈ iterateOps session s input, op.wrapped = p.note := by
  have hhanded : ∀ isLocal, s.running = true → session.breaks s.remoteTracker input = false →
      ¬(isLocal && session.mirrors s.remoteTracker input.event) = true →
      p ∈ (s.tracker isLocal).posts isLocal (session.transpose input.event) →
      ∃ op ∈ iterateOps session s input, op.wrapped = p.note := by
    intro isLocal hrunning hbreaks hplays hposts
    obtain ⟨op, hop, hnote⟩ := exists_op_of_mem_posts hposts
    exact ⟨op, handleNoteOps_subset hrunning hbreaks hplays hop, hnote⟩
  have hround := iterate_spec session s input
  generalize iterate session s input = r at hround hp
  cases hround with
  | stopped _ | sendFailed _ _ _ _ => simp [notePosts] at hp
  | mirrored hrunning hin hsink hret =>
    rw [← List.singleton_append, notePosts_append, notePosts_handleNote] at hp
    exact hhanded false hrunning (by simp [Session.breaks, hret]) Bool.false_ne_true hp
  | localOnly hrunning hout hsink =>
    rw [notePosts_handleNote] at hp
    have hmirrors : session.mirrors s.remoteTracker input.event = false := by
      simp [Session.mirrors, hout]
    exact hhanded true hrunning (by simp [Session.breaks, hmirrors]) (by simp [hmirrors]) hp
  | both hrunning hsink =>
    rw [notePosts_append, notePosts_handleNote, notePosts_handleNote, List.mem_append] at hp
    have hmirrors : session.mirrors s.remoteTracker input.event = false := by
      simp [Session.mirrors, hsink]
    have hbreaks : session.breaks s.remoteTracker input = false := by
      simp [Session.breaks, hmirrors]
    rcases hp with hp | hp
    · exact hhanded false hrunning hbreaks Bool.false_ne_true hp
    · exact hhanded true hrunning hbreaks (by simp [hmirrors]) hp

/-- In a loop that does not overflow, the notes posted are the exact sums. -/
theorem posted_note_exact {session : Session} {s : LoopState} {inputs : List LoopInput}
    (hfit : AllFit (mainLoopOps session s inputs)) {p : NotePost}
    (hp : p ∈ notePosts (mainLoop session s inputs).2) :
    ∃ op ∈ mainLoopOps session s inputs, p.note.toInt = op.exact := by
  induction inputs generalizing s with
  | nil => exact absurd hp List.not_mem_nil
  | cons input inputs ih =>
    rw [mainLoopOps, allFit_append] at hfit
    rw [mainLoop, Transducer.exec_cons, notePosts_append, List.mem_append] at hp
    rcases hp with hp | hp
    · obtain ⟨op, hop, hnote⟩ := exists_op_of_mem_iterate hp
      refine ⟨op, List.mem_append_left _ hop, ?_⟩
      rw [← hnote, IntOp.toInt_wrapped (hfit.1 op hop)]
    · obtain ⟨op, hop, hexact⟩ := ih hfit.2 hp
      exact ⟨op, List.mem_append_right _ hop, hexact⟩

/-- **The note arithmetic overflows only as the arguments make it.** For all arguments and every
stream of events, every addition and subtraction of the main loop, `note_is_in_range` and
`handle_note` stays in the range of an `int` exactly when every round that the loop comes to meets
its condition. The sums of a held note add none. When all of them stay in range, each note that is
posted is the exact result of one of them. -/
theorem note_arithmetic_fits_iff (args : Arguments) (keySink : KeySink) (codeTable : List UInt32)
    (inputs : List LoopInput) :
    let session := args.session keySink codeTable
    let ops := mainLoopOps session args.loopStart inputs
    ((∀ op ∈ ops, FitsInt op.exact) ↔
      ∀ input ∈ session.reached args.remoteTracker inputs,
        session.RoundFits args.remoteTracker args.localTracker input) ∧
    ((∀ op ∈ ops, FitsInt op.exact) →
      ∀ p ∈ notePosts (mainLoop session args.loopStart inputs).2,
        ∃ op ∈ ops, p.note.toInt = op.exact) := by
  intro session ops
  have hrec : ∀ isLocal, Recorded [] (args.loopStart.tracker isLocal) := by
    intro isLocal hheld
    cases isLocal with
    | true => exact absurd hheld (show ¬(0 : Int32) ≤ -1 by decide)
    | false => exact absurd hheld (show ¬(0 : Int32) ≤ -1 by decide)
  constructor
  · exact mainLoopOps_fit_iff (s := args.loopStart) rfl allFit_nil hrec inputs
  · exact fun hfit p hp => posted_note_exact hfit hp

/-- The largest transposition is accepted, and the note 1 cannot be transposed by it. -/
theorem midi_transpose_overflows :
    let args : Arguments := { midiTranspose := 2147483647 }
    startup (⟨.bits64, fun _ => .error .noDigits⟩ : Platform Unit)
        ["--midi-transpose", "2147483647"] = .run args ∧
      IntOp.add 1 2147483647 ∈
        mainLoopOps (args.session win32KeySink []) args.loopStart [⟨⟨1, true⟩, 1⟩] ∧
      ¬ FitsInt (IntOp.add 1 2147483647).exact := by
  intro args
  have hreads : Denotes "2147483647".toList (2147483647 : Int32).toInt :=
    ⟨false, 2147483647, (scan_eq_some_iff _ _ _).mp (by decide), by decide⟩
  exact ⟨startup_groups _ [.int .midiTranspose _ _ hreads], by decide, by decide⟩

end Sussybard

import Sussybard.Backlog
import Sussybard.Sounding
import Sussybard.SynthFifo

/-!
# What the audio thread plays

The posts of the main loop reach the voices through the ring, at the pace of the
audio thread. What it has taken at any moment is the first part of what the loop
has posted, word by word what was meant, and so its voices sound no more than
the loop ever had sounding.
-/

namespace Sussybard

open Transducer Relation Switching

/-- The switches that one split gets from the words that `mix_samples` has taken. -/
def splitSwitches (isLocal : Bool) (words : List UInt32) : List (Switch ℤ) :=
  ((words.map SynthCommand.ofWord).filter (·.channel = (synthChannel isLocal).toInt)).map
    fun command => ⟨command.on, command.note⟩

/-- The notes that sound in a split. -/
def splitSounds (isLocal : Bool) (words : List UInt32) : Finset ℤ :=
  active ∅ (splitSwitches isLocal words)

/-- Every note of a tracker's window fits in a byte once it is transposed for the synth. -/
structure MonophonyTracker.FitsByte (tracker : MonophonyTracker) : Prop where
  nonneg : 0 ≤ tracker.baseKey.toInt + tracker.synthTranspose.toInt
  le : tracker.baseKey.toInt + tracker.synthTranspose.toInt + tracker.range.toInt ≤ 256

/-- The sum that gives such a note does not wrap, or wraps back. -/
theorem MonophonyTracker.FitsByte.soundOf_mem {tracker : MonophonyTracker} (h : tracker.FitsByte)
    {offset : Int32} (hlow : 0 ≤ offset) (hhigh : offset < tracker.range) :
    0 ≤ tracker.soundOf offset ∧ tracker.soundOf offset ≤ 255 := by
  have hnonneg := h.nonneg
  have hle := h.le
  rw [Int32.le_iff_toInt_le, Int32.toInt_zero] at hlow
  rw [Int32.lt_iff_toInt_lt] at hhigh
  have hsum : (tracker.soundOf offset).toInt =
      tracker.baseKey.toInt + offset.toInt + tracker.synthTranspose.toInt := by
    rw [MonophonyTracker.soundOf, Int32.toInt_add, Int32.toInt_add, Int.bmod_add_bmod]
    exact Int.bmod_eq_of_le (by omega) (by omega)
  rw [Int32.le_iff_toInt_le, Int32.le_iff_toInt_le, hsum]
  simp only [Int32.reduceToInt]
  omega

/-- The notes that such a run posts fit in a byte, whatever the events. -/
theorem notePosts_mem_byte {args : Arguments}
    (hfits : ∀ isLocal, (args.loopStart.tracker isLocal).FitsByte) (session : Session)
    (inputs : List LoopInput) :
    ∀ p ∈ notePosts (mainLoop session args.loopStart inputs).2, 0 ≤ p.note ∧ p.note ≤ 255 := by
  rw [← notePosts_runMain]
  apply (runMain_notes_iff (fun note => 0 ≤ note ∧ note ≤ 255) args session inputs).mpr
  intro isLocal event _ hin
  obtain ⟨hlow, hhigh⟩ := noteIsInRange_iff.mp hin
  rw [note_eq_soundOf]
  exact (hfits isLocal).soundOf_mem hlow hhigh

/-- The words of posts that fit in a byte switch what was meant. -/
theorem splitSwitches_words (isLocal : Bool) {posts : List NotePost}
    (hposts : ∀ p ∈ posts, ∃ isLocal, p.channel = synthChannel isLocal ∧ 0 ≤ p.note ∧
      p.note ≤ 255) :
    splitSwitches isLocal (posts.map NotePost.word) =
      switches Int32.toInt (onChannel (synthChannel isLocal) posts) := by
  have hcommands : (posts.map NotePost.word).map SynthCommand.ofWord =
      posts.map NotePost.command := by
    rw [List.map_map]
    refine List.map_congr_left fun p hp => ?_
    obtain ⟨isLocal', hchannel, hnote⟩ := hposts p hp
    exact (ofWord_word_iff hchannel).mpr hnote
  have hchannel : (fun command : SynthCommand => decide (command.channel =
      (synthChannel isLocal).toInt)) ∘ NotePost.command =
        fun p => decide (p.channel = synthChannel isLocal) := by
    funext p
    simp only [Function.comp_apply, NotePost.command, Int32.toInt_inj]
  rw [splitSwitches, hcommands, List.filter_map, List.map_map, hchannel]
  rfl

/-- The numbers of the notes tell those of any window apart. -/
theorem distinguishes_toInt (tracker : MonophonyTracker) : Distinguishes Int32.toInt tracker := by
  intro a b ha hahigh hb hbhigh heq
  exact distinguishes_id tracker a b ha hahigh hb hbhigh (Int32.toInt_inj.mp heq)

/-! ### Runs -/

/-- What holds in every state of a run in which every event finds room: the ring hands over what
was posted, and what was posted is what the loop has posted for the events it has taken up. -/
structure PlayInv (session : Session) (start : LoopState) (inputs : List LoopInput)
    (s : PlayState) : Prop where
  roomy : RoomyInv s
  taken_prefix : s.ring.taken <+: s.ring.published
  handled : ∃ handled, inputs = handled ++ s.source ∧
    s.loop = (mainLoop session start handled).1 ∧
    s.ring.posted ++ s.queued = (notePosts (mainLoop session start handled).2).map NotePost.word

/-- It holds before the first event. -/
theorem playInv_start (args : Arguments) (session : Session) (synth : Synth)
    (inputs : List LoopInput) :
    PlayInv session args.loopStart inputs (args.playStart synth inputs) where
  roomy := roomyInv_start args synth inputs
  taken_prefix := List.prefix_rfl
  handled := ⟨[], rfl, rfl, rfl⟩

/-- Every step that finds room keeps it. -/
theorem PlayInv.step {session : Session} {start : LoopState} {inputs : List LoopInput}
    {s t : PlayState} {a : PlayAction} (h : PlayInv session start inputs s)
    (hstep : PlayStep session s a t)
    (hroom : a = .event → s.ring.pending + session.maxPosts ≤ ringSize) :
    PlayInv session start inputs t := by
  have hroomy := h.roomy.step hstep hroom
  obtain ⟨handled, hinputs, hloop, hposted⟩ := h.handled
  cases hstep with
  | event input rest hsource hqueued hidle =>
    refine ⟨hroomy, h.taken_prefix, handled ++ [input], ?_, ?_, ?_⟩
    · rw [hinputs, hsource, List.append_assoc, List.singleton_append]
    · rw [mainLoop_append, hloop]
      rfl
    · rw [hqueued, List.append_nil] at hposted
      have hone : (mainLoop session s.loop [input]).2 = (iterate session s.loop input).2 :=
        List.append_nil _
      rw [mainLoop_append, notePosts_append, List.map_append, ← hposted, ← hloop, hone]
  | write word rest ring hqueued hring =>
    cases hring with
    | write _ _ =>
      refine ⟨hroomy, h.taken_prefix, handled, hinputs, hloop, ?_⟩
      rw [← hposted, hqueued, List.append_assoc, List.singleton_append]
  | other action ring haction hring =>
    have hguarded : GuardedInv s.ring := by
      refine ⟨h.roomy.toRingInv, ?_, h.taken_prefix⟩
      exact (Nat.le_add_right _ _).trans h.roomy.fits
    have hroomToWrite : RoomToWrite s.ring action := by
      cases action with
      | write word => exact absurd rfl (haction word)
      | publish | load | take | finish => trivial
    have htaken := GuardedInv.taken_prefix (hguarded.step hring hroomToWrite)
    refine ⟨hroomy, htaken, handled, hinputs, hloop, ?_⟩
    rw [← hposted]
    cases hring with
    | write word _ => exact absurd rfl (haction word)
    | publish _ | load _ | take _ _ _ | finish _ _ _ => rfl

/-- So does every run. -/
theorem PlayInv.run {session : Session} {start : LoopState} {inputs : List LoopInput}
    {s t : PlayState} (h : PlayInv session start inputs s) (hrun : RoomyRun session s t) :
    PlayInv session start inputs t := by
  induction hrun with
  | refl => exact h
  | tail _ hstep ih =>
    obtain ⟨a, ha, hroom⟩ := hstep
    exact ih.step ha hroom

/-- What the audio thread has taken are the words of the first posts of the loop, and of all of
them when nothing is left to take. -/
theorem PlayInv.taken_eq {session : Session} {start : LoopState} {inputs : List LoopInput}
    {s : PlayState} (h : PlayInv session start inputs s) :
    ∃ handled before after, s.loop = (mainLoop session start handled).1 ∧
      notePosts (mainLoop session start handled).2 = before ++ after ∧
      s.ring.taken = before.map NotePost.word ∧
      (s.queued = [] → s.ring.taken = s.ring.posted → after = []) := by
  obtain ⟨handled, -, hloop, hposted⟩ := h.handled
  obtain ⟨rest, hrest⟩ := h.taken_prefix.trans h.roomy.published_prefix
  rw [← hrest, List.append_assoc] at hposted
  obtain ⟨before, after, hposts, htaken, hafter⟩ := List.append_eq_map_iff.mp hposted
  refine ⟨handled, before, after, hloop, hposts, htaken.symm, fun hqueued hall => ?_⟩
  have hnone : rest = [] := by
    rw [← hrest] at hall
    exact List.self_eq_append_right.mp hall
  rw [hnone, hqueued, List.append_nil, List.map_eq_nil_iff] at hafter
  exact hafter

/-- **The voices are monophonic per player.** Whatever the events, the network and the schedule of
the audio thread, as long as every event finds room in the ring and the windows fit in a byte: at
every moment each split has no more than two notes on, whatever part of the posts has reached it;
and when all of it has, it has on exactly the note that its tracker holds. -/
theorem audio_thread_monophony (args : Arguments)
    (hfits : ∀ isLocal, (args.loopStart.tracker isLocal).FitsByte) (keySink : KeySink)
    (codeTable : List UInt32) (synth : Synth) (inputs : List LoopInput) {s : PlayState}
    (hrun : RoomyRun (args.session keySink codeTable) (args.playStart synth inputs) s)
    (isLocal : Bool) :
    (splitSounds isLocal s.ring.taken).card ≤ 2 ∧
      (s.queued = [] → s.ring.taken = s.ring.posted →
        let tracker := s.loop.tracker isLocal
        splitSounds isLocal s.ring.taken =
          if 0 ≤ tracker.pressedNoteOffset then
            {(tracker.baseKey + tracker.pressedNoteOffset + tracker.synthTranspose).toInt}
          else ∅) := by
  obtain ⟨handled, before, after, hloop, hposts, htaken, hafter⟩ :=
    ((playInv_start args (args.session keySink codeTable) synth inputs).run hrun).taken_eq
  have hbytes := notePosts_mem_byte hfits (args.session keySink codeTable) handled
  have hfree : (args.loopStart.tracker isLocal).pressedNoteOffset = -1 := by
    cases isLocal <;> rfl
  have hsounds := mainLoop_sounds (args.session keySink codeTable) rfl hfree
    (distinguishes_toInt _) handled
  have hswitches : splitSwitches isLocal s.ring.taken =
      switches Int32.toInt (onChannel (synthChannel isLocal) before) := by
    rw [htaken]
    refine splitSwitches_words isLocal fun p hp => ?_
    have hmem : p ∈ notePosts (mainLoop (args.session keySink codeTable) args.loopStart
        handled).2 := by
      rw [hposts]
      exact List.mem_append_left _ hp
    obtain ⟨isLocal', hchannel⟩ := channel_of_mem_mainLoop hmem
    exact ⟨isLocal', hchannel, hbytes p hmem⟩
  rw [splitSounds, hswitches]
  constructor
  · have hclean := hsounds.clean
    rw [hposts, onChannel_append, switches_append] at hclean
    exact hclean.card_le
  · intro hqueued hall tracker
    have hactive := hsounds.active_eq
    rw [hposts, hafter hqueued hall, List.append_nil, ← hloop] at hactive
    exact hactive

/-- With the default options, the press of note 40 reaches the voices of the local player, and
note 52 is the one they have on. -/
theorem audio_thread_monophony_one_press :
    (splitSounds true [noteOnWord 0 52]).card ≤ 2 ∧ splitSounds true [noteOnWord 0 52] = {52} := by
  let args : Arguments := {}
  let session := args.session win32KeySink []
  let synth : Synth := ⟨Vector.replicate ringSize 0, 0, 0, 0⟩
  let start := args.playStart synth [⟨⟨40, true⟩, 1⟩]
  have hfits : ∀ isLocal, (args.loopStart.tracker isLocal).FitsByte := by
    intro isLocal
    cases isLocal
    · exact ⟨by decide, by decide⟩
    · exact ⟨by decide, by decide⟩
  have hevent : PlayStep session start .event _ := .event start ⟨⟨40, true⟩, 1⟩ [] rfl rfl rfl
  have hqueued : (notePosts (iterate session start.loop ⟨⟨40, true⟩, 1⟩).2).map NotePost.word =
      [noteOnWord 0 52] := by decide
  rw [hqueued] at hevent
  have hrun : RoomyRun session start _ := .single ⟨_, hevent, fun _ => by decide⟩
  have hloaded := (hrun.post rfl rfl).tail ⟨_, .other _ .load _ nofun (.load _ rfl), nofun⟩
  have htaken := hloaded.tail ⟨_, .other _ .take _ nofun
    (.take _ ⟨1, [noteOnWord 0 52]⟩ rfl (by decide)), nofun⟩
  obtain ⟨hcard, hexact⟩ := audio_thread_monophony args hfits win32KeySink [] synth _ htaken true
  have hheld : (0 : Int32) ≤
      ((iterate session start.loop ⟨⟨40, true⟩, 1⟩).1.tracker true).pressedNoteOffset := by decide
  refine ⟨hcard, (hexact rfl rfl).trans ((if_pos hheld).trans ?_)⟩
  decide

end Sussybard

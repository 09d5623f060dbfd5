import Sussybard.Routing
import Sussybard.Synth

/-!
# Commands through the ring word

A post packs channel, kind and note into one word, and `mix_samples` unpacks it
again. The note is neither masked nor checked, so it must fit in its byte: a
negative note or one above 255 runs into the bits of the channel and of the
kind. Which notes a run posts is decided by the events that are routed to the
players; nothing else is ever posted.
-/

namespace Sussybard

/-- The word that a post writes to the ring. -/
def NotePost.word (p : NotePost) : UInt32 :=
  if p.on then noteOnWord p.channel p.note else noteOffWord p.channel p.note

/-- The command that a post stands for. -/
def NotePost.command (p : NotePost) : SynthCommand where
  on := p.on
  channel := p.channel.toInt
  note := p.note.toInt

/-- A post as the call of `post_note_on` or `post_note_off` that it is. -/
def Synth.post (synth : Synth) (p : NotePost) : Synth :=
  if p.on then synth.postNoteOn p.channel p.note else synth.postNoteOff p.channel p.note

/-- Either call writes the word of the post to the next slot and publishes it. -/
theorem post_eq (synth : Synth) (p : NotePost) :
    synth.post p = (synth.writeSlot p.word).publish := by
  unfold Synth.post NotePost.word Synth.postNoteOn Synth.postNoteOff
  split_ifs <;> rfl

/-! ### One word -/

/-- All notes of eight bits survive the trip on both channels. -/
private theorem ofWord_word_ofNat :
    ∀ n < 256, ∀ on isLocal : Bool,
      SynthCommand.ofWord (NotePost.word ⟨on, synthChannel isLocal, Int32.ofNat n⟩) =
        ⟨on, (synthChannel isLocal).toInt, n⟩ := by
  decide +kernel

/-- A posted note as the synth receives it, modulo 256. -/
def noteByte (note : Int32) : UInt8 := note.toUInt32.toUInt8

/-- Whatever the note, what is applied is its low byte. -/
theorem ofWord_word_note {p : NotePost} {isLocal : Bool}
    (hchannel : p.channel = synthChannel isLocal) :
    (SynthCommand.ofWord p.word).note = (noteByte p.note).toNat := by
  have hshift : (p.channel <<< 16).toUInt32.toUInt8 = 0 := by
    rw [hchannel]
    cases isLocal <;> decide
  unfold SynthCommand.ofWord NotePost.word noteOnWord noteOffWord noteByte
  split_ifs <;> simp [UInt32.toUInt8_or, hshift]

/-- A word on a player's channel is applied as the command that was posted exactly when eight
bits hold the note. -/
theorem ofWord_word_iff {p : NotePost} {isLocal : Bool}
    (hchannel : p.channel = synthChannel isLocal) :
    SynthCommand.ofWord p.word = p.command ↔ 0 ≤ p.note ∧ p.note ≤ 255 := by
  obtain ⟨on, channel, note⟩ := p
  simp only at hchannel
  subst hchannel
  constructor
  · intro h
    have hnote := @ofWord_word_note ⟨on, synthChannel isLocal, note⟩ isLocal rfl
    have hbyte := (noteByte note).toNat_lt
    rw [h] at hnote
    simp only [NotePost.command] at hnote
    rw [Int32.le_iff_toInt_le, Int32.le_iff_toInt_le]
    simp only [Int32.reduceToInt]
    omega
  · rintro ⟨hlow, hhigh⟩
    simp only [Int32.le_iff_toInt_le, Int32.reduceToInt] at hhigh
    obtain ⟨n, hn, rfl⟩ := exists_ofNat_of_nonneg hlow
    rw [hn] at hhigh
    rw [ofWord_word_ofNat n (by omega) on isLocal]
    simp only [NotePost.command, hn]

/-! ### The notes that a run posts -/

/-- If a tracker holds a key, its note satisfies `Q`. -/
def HeldNote (Q : Int32 → Prop) (tracker : MonophonyTracker) : Prop :=
  0 ≤ tracker.pressedNoteOffset →
    Q (tracker.pressedNoteOffset + tracker.baseKey + tracker.synthTranspose)

/-- If an event is in a tracker's window, the note that it posts satisfies `Q`. -/
def EventNote (Q : Int32 → Prop) (tracker : MonophonyTracker) (event : NoteEvent) : Prop :=
  tracker.noteIsInRange event.note = true → Q (event.note + tracker.synthTranspose)

/-- A held key whose note is the event's. -/
private theorem held_note_eq {tracker : MonophonyTracker} {event : NoteEvent}
    (hheld : tracker.pressedNoteOffset = event.note - tracker.baseKey) :
    tracker.pressedNoteOffset + tracker.baseKey + tracker.synthTranspose =
      event.note + tracker.synthTranspose := by
  rw [hheld]
  grind

/-- A call posts the note of its event, and otherwise only the note of the held key; a double
tap posts nothing, but then the note of the event is that of the held key. -/
theorem posts_notes_iff {Q : Int32 → Prop} {tracker : MonophonyTracker} (hheld : HeldNote Q tracker)
    (isLocal : Bool) (event : NoteEvent) :
    (∀ p ∈ tracker.posts isLocal event, Q p.note) ↔ EventNote Q tracker event := by
  unfold EventNote MonophonyTracker.posts
  cases hin : tracker.noteIsInRange event.note with
  | false => simp
  | true =>
    have hoffset := (noteIsInRange_iff.mp hin).1
    by_cases heq : tracker.pressedNoteOffset = event.note - tracker.baseKey
    · have hnote : Q (event.note + tracker.synthTranspose) := by
        rw [← held_note_eq heq]
        exact hheld (heq ▸ hoffset)
      cases event.pressed <;> simp [heq, hnote]
    · cases hpress : event.pressed with
      | false => simp [heq]
      | true =>
        by_cases hsome : 0 ≤ tracker.pressedNoteOffset
        · simp [heq, hsome, hheld hsome]
        · simp [heq, hsome]

/-- After an event whose note satisfies `Q` the held key still does. -/
theorem HeldNote.next {Q : Int32 → Prop} {tracker : MonophonyTracker} (hheld : HeldNote Q tracker)
    {event : NoteEvent} (hevent : EventNote Q tracker event) : HeldNote Q (tracker.next event) := by
  unfold MonophonyTracker.next
  split_ifs with hin hpress hrelease
  · intro _
    rw [held_note_eq rfl]
    exact hevent hin
  · intro h
    have hneg : ¬ (0 : Int32) ≤ -1 := by decide
    exact absurd h hneg
  · exact hheld
  · exact hheld

/-- The notes that a player's run posts are those of the events in the player's window. -/
theorem playerRun_notes_iff {Q : Int32 → Prop} (session : Session) (isLocal : Bool)
    {tracker : MonophonyTracker} (hheld : HeldNote Q tracker) (events : List NoteEvent) :
    (∀ p ∈ notePosts (playerRun session isLocal tracker events).2, Q p.note) ↔
      ∀ event ∈ events, EventNote Q tracker event := by
  induction events generalizing tracker with
  | nil => simp [playerRun, notePosts]
  | cons event events ih =>
    have hstep := posts_notes_iff hheld isLocal event
    rw [notePosts_playerRun_cons, List.forall_mem_append, List.forall_mem_cons, hstep]
    apply and_congr_right
    intro hevent
    rw [ih (hheld.next hevent)]
    simp [EventNote]

/-- The notes that a run posts are those of the events routed to the player whose window
they are in. -/
theorem runMain_notes_iff (Q : Int32 → Prop) (args : Arguments) (session : Session)
    (inputs : List LoopInput) :
    (∀ p ∈ notePosts (runMain session args.loopStart inputs), Q p.note) ↔
      ∀ isLocal, ∀ event ∈ session.routed args.remoteTracker isLocal inputs,
        EventNote Q (args.loopStart.tracker isLocal) event := by
  have hfree (isLocal : Bool) : HeldNote Q (args.loopStart.tracker isLocal) := by
    have hoffset : (args.loopStart.tracker isLocal).pressedNoteOffset = -1 := by
      cases isLocal <;> rfl
    intro h
    rw [hoffset] at h
    exact absurd h (by decide)
  constructor
  · intro h isLocal
    apply (playerRun_notes_iff session isLocal (hfree isLocal) _).mp
    intro p hp
    exact h p ((mem_notePosts_runMain rfl).mpr ⟨isLocal, hp⟩)
  · intro h p hp
    obtain ⟨isLocal, hp⟩ := (mem_notePosts_runMain rfl).mp hp
    exact (playerRun_notes_iff session isLocal (hfree isLocal) _).mpr (h isLocal) p hp

/-- **The synth applies what main posts** exactly when every event that reaches a player and is
in that player's window has a note that fits in a byte once it is transposed for the synth. -/
theorem run_commands_iff (args : Arguments) (keySink : KeySink) (codeTable : List UInt32)
    (inputs : List LoopInput) :
    let session := args.session keySink codeTable
    (∀ p ∈ notePosts (runMain session args.loopStart inputs),
      SynthCommand.ofWord p.word = p.command) ↔
      ∀ isLocal, ∀ event ∈ session.routed args.remoteTracker isLocal inputs,
        let tracker := args.loopStart.tracker isLocal
        tracker.noteIsInRange event.note = true →
          0 ≤ event.note + tracker.synthTranspose ∧ event.note + tracker.synthTranspose ≤ 255 := by
  intro session
  refine Iff.trans ?_ (runMain_notes_iff (fun note => 0 ≤ note ∧ note ≤ 255) args session inputs)
  apply forall₂_congr
  intro p hp
  obtain ⟨isLocal, hp⟩ := (mem_notePosts_runMain rfl).mp hp
  exact ofWord_word_iff (channel_of_mem_playerRun hp)

/-- With a window at the bottom of the MIDI range and a synth transposed one octave down, the
release of note 5 switches the local note -7 off, and is applied as switching on note 249 of
the other player. -/
theorem release_applied_as_press :
    let args : Arguments := { baseKey := 0, synthTranspose := -12 }
    let session := args.session win32KeySink []
    let inputs : List LoopInput := [⟨⟨5, false⟩, 1⟩]
    notePosts (runMain session args.loopStart inputs) = [⟨false, 0, -7⟩] ∧
      SynthCommand.ofWord (NotePost.word ⟨false, 0, -7⟩) = ⟨true, 1, 249⟩ ∧
      ¬ ∀ p ∈ notePosts (runMain session args.loopStart inputs),
        SynthCommand.ofWord p.word = p.command := by
  intro args session inputs
  have hposts : notePosts (runMain session args.loopStart inputs) = [⟨false, 0, -7⟩] := by decide
  have hword : SynthCommand.ofWord (NotePost.word ⟨false, 0, -7⟩) = ⟨true, 1, 249⟩ := by decide
  refine ⟨hposts, hword, ?_⟩
  intro hall
  rw [hposts] at hall
  have hsame := hall _ (List.mem_singleton_self _)
  rw [hword] at hsame
  exact absurd hsame (by decide)

end Sussybard

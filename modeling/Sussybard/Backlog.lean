import Sussybard.Commands
import Sussybard.SynthRing

/-!
# The backlog of the command ring

The main thread never looks at `read_count` when it posts. If the audio thread
falls behind, or asks for nothing at all, the ring fills up, and once a full
ring of commands is pending the next post overwrites one of them. An iteration
of the main loop posts four commands at most, two with a UDP sink, so nothing is
lost while each iteration finds room for those.
-/

namespace Sussybard

open Transducer Relation

/-- The next write would hit the slot of a command that is published and not yet applied. -/
def RingState.Overwrites (s : RingState) : Prop :=
  ∃ j, s.taken.length ≤ j ∧ j < s.published.length ∧
    ringIndex (UInt32.ofNat j) = ringIndex s.synth.writeCount

/-- A write hits a pending command exactly when a full ring of commands is pending. -/
theorem RingInv.overwrites_iff {s : RingState} (h : RingInv s) (hidle : s.posting = false) :
    s.Overwrites ↔ ringSize ≤ s.pending := by
  have hlength : s.published.length = s.posted.length := by rw [h.published_of_idle hidle]
  unfold RingState.Overwrites RingState.pending
  rw [h.writeCount_eq, ← hlength]
  constructor
  · rintro ⟨j, hlow, hhigh, hslot⟩
    rw [ringIndex_ofNat, ringIndex_ofNat] at hslot
    by_contra hfew
    exact Ring.slot_ne hhigh (by omega) hslot
  · intro hfull
    have hpos := ringSize_pos
    refine ⟨s.published.length - ringSize, by omega, by omega, ?_⟩
    rw [ringIndex_ofNat, ringIndex_ofNat]
    have hsum : s.published.length - ringSize + ringSize = s.published.length := by omega
    conv_rhs => rw [← hsum, Nat.add_mod_right]

/-! ### The program and the audio thread -/

/-- The main loop with the events still to come, the posts of the current iteration that are
still to be made, and the ring. -/
structure PlayState where
  /-- The variables of the main loop. -/
  loop : LoopState
  /-- What the source will still provide. -/
  source : List LoopInput
  /-- The words that the current iteration will still post. -/
  queued : List UInt32
  /-- The ring between the threads. -/
  ring : RingState

/-- A step takes up an event or is a step of the ring. -/
inductive PlayAction where
  | event
  | ring (action : RingAction)

/-- One step of the program or of the audio thread. The next event is taken up when the posts
of the last one are done. -/
inductive PlayStep (session : Session) : PlayState → PlayAction → PlayState → Prop
  | event (s : PlayState) (input : LoopInput) (rest : List LoopInput)
      (hsource : s.source = input :: rest) (hqueued : s.queued = [])
      (hidle : s.ring.posting = false) :
      PlayStep session s .event { s with
        loop := (iterate session s.loop input).1
        source := rest
        queued := (notePosts (iterate session s.loop input).2).map NotePost.word }
  | write (s : PlayState) (word : UInt32) (rest : List UInt32) (ring : RingState)
      (hqueued : s.queued = word :: rest) (hring : RingStep s.ring (.write word) ring) :
      PlayStep session s (.ring (.write word)) { s with queued := rest, ring := ring }
  | other (s : PlayState) (action : RingAction) (ring : RingState)
      (haction : ∀ word, action ≠ .write word) (hring : RingStep s.ring action ring) :
      PlayStep session s (.ring action) { s with ring := ring }

/-- Runs of any schedule. -/
def PlayRun (session : Session) : PlayState → PlayState → Prop :=
  ReflTransGen fun s t => ∃ a, PlayStep session s a t

/-- The program before its first event. -/
def Arguments.playStart (args : Arguments) (synth : Synth) (inputs : List LoopInput) :
    PlayState where
  loop := args.loopStart
  source := inputs
  queued := []
  ring := RingState.start synth

/-- The next step of the main thread is the write of a post. -/
def PlayState.AboutToWrite (s : PlayState) : Prop := s.queued ≠ [] ∧ s.ring.posting = false

/-- Every step keeps the invariant of the ring. -/
theorem PlayStep.ringInv {session : Session} {s t : PlayState} {a : PlayAction}
    (hstep : PlayStep session s a t) (h : RingInv s.ring) : RingInv t.ring := by
  cases hstep with
  | event _ _ _ _ _ => exact h
  | write _ _ _ _ hring => exact h.step hring
  | other _ _ _ hring => exact h.step hring

/-! ### How much an iteration posts -/

/-- The most commands that one iteration posts. -/
def Session.maxPosts (session : Session) : ℕ := if session.udpSink then 2 else 4

/-- An iteration posts no more than that. -/
theorem iterate_posts_le (session : Session) (s : LoopState) (input : LoopInput) :
    (notePosts (iterate session s input).2).length ≤ session.maxPosts := by
  have hround := iterate_spec session s input
  generalize iterate session s input = r at hround ⊢
  unfold Session.maxPosts
  cases hround with
  | stopped _ | sendFailed _ _ _ _ => simp [notePosts]
  | mirrored _ _ hsink _ =>
    rw [← List.singleton_append, notePosts_append, notePosts_handleNote, hsink]
    exact posts_length_le _ _ _
  | localOnly _ _ hsink =>
    rw [notePosts_handleNote, hsink]
    exact posts_length_le _ _ _
  | both _ hsink =>
    have hremote := posts_length_le s.remoteTracker false (session.transpose input.event)
    have hlocal := posts_length_le s.localTracker true (session.transpose input.event)
    rw [notePosts_append, notePosts_handleNote, notePosts_handleNote, List.length_append, hsink]
    simp only [Bool.false_eq_true, if_false]
    omega

/-- Runs in which every event is taken up with room in the ring for what it can post. -/
def RoomyRun (session : Session) : PlayState → PlayState → Prop :=
  ReflTransGen fun s t => ∃ a, PlayStep session s a t ∧
    (a = .event → s.ring.pending + session.maxPosts ≤ ringSize)

/-- They are runs. -/
theorem RoomyRun.playRun {session : Session} {s t : PlayState} (hrun : RoomyRun session s t) :
    PlayRun session s t :=
  ReflTransGen.mono (fun _ _ ⟨a, ha, _⟩ => ⟨a, ha⟩) _ _ hrun

/-- Such a run goes on with a whole post. -/
theorem RoomyRun.post {session : Session} {s t : PlayState} (hrun : RoomyRun session s t)
    {word : UInt32} {rest : List UInt32} (hqueued : t.queued = word :: rest)
    (hidle : t.ring.posting = false) :
    RoomyRun session s { t with queued := rest, ring := t.ring.post word } := by
  obtain ⟨ring, hwrite, hpublish⟩ := post_steps hidle word
  exact (hrun.tail ⟨_, .write t word rest ring hqueued hwrite, nofun⟩).tail
    ⟨_, .other { t with queued := rest, ring := ring } .publish _ nofun hpublish, nofun⟩

/-- What holds in such runs: the commands that are not yet applied and those that the current
iteration will still post fit in the ring. -/
structure RoomyInv (s : PlayState) : Prop extends RingInv s.ring where
  fits : s.ring.posted.length + s.queued.length ≤ s.ring.taken.length + ringSize

/-- The invariant holds at the start. -/
theorem roomyInv_start (args : Arguments) (synth : Synth) (inputs : List LoopInput) :
    RoomyInv (args.playStart synth inputs) where
  toRingInv := ringInv_start synth
  fits := Nat.zero_le _

/-- Every step that finds room keeps the invariant. -/
theorem RoomyInv.step {session : Session} {s t : PlayState} {a : PlayAction} (h : RoomyInv s)
    (hstep : PlayStep session s a t)
    (hroom : a = .event → s.ring.pending + session.maxPosts ≤ ringSize) : RoomyInv t := by
  refine ⟨hstep.ringInv h.toRingInv, ?_⟩
  have hfits := h.fits
  cases hstep with
  | event input rest _ hqueued hidle =>
    have hposts := iterate_posts_le session s.loop input
    have hroom := hroom rfl
    have htaken := h.taken_le
    rw [RingState.pending, h.published_of_idle hidle] at hroom
    rw [h.published_of_idle hidle] at htaken
    simp only [List.length_map]
    omega
  | write word rest ring hqueued hring =>
    cases hring with
    | write _ _ =>
      simp only [hqueued, List.length_cons] at hfits
      simp only [List.length_append, List.length_singleton]
      omega
  | other action ring haction hring =>
    cases hring with
    | write word _ => exact absurd rfl (haction word)
    | take d _ _ =>
      simp only [List.length_append, List.length_singleton]
      omega
    | publish _ | load _ | finish _ _ _ => exact hfits

/-- Every such run keeps the invariant. -/
theorem RoomyInv.run {session : Session} {s t : PlayState} (h : RoomyInv s)
    (hrun : RoomyRun session s t) : RoomyInv t := by
  induction hrun with
  | refl => exact h
  | tail _ hstep ih =>
    obtain ⟨a, ha, hroom⟩ := hstep
    exact ih.step ha hroom

/-- Every run keeps the invariant of the ring. -/
theorem PlayRun.ringInv {session : Session} {s t : PlayState} (hrun : PlayRun session s t)
    (h : RingInv s.ring) : RingInv t.ring := by
  induction hrun with
  | refl => exact h
  | tail _ hstep ih =>
    obtain ⟨a, ha⟩ := hstep
    exact ha.ringInv ih

/-- **When a pending command is overwritten.** Under any schedule of the audio thread, the write
of a post hits a command that is published and not yet applied exactly when a full ring of
commands is pending; and no write does in a run in which every event is taken up with room for
the two or four commands that it can post. -/
theorem post_overwrites_iff (args : Arguments) (keySink : KeySink) (codeTable : List UInt32)
    (synth : Synth) (inputs : List LoopInput) :
    let session := args.session keySink codeTable
    (∀ s, PlayRun session (args.playStart synth inputs) s → s.AboutToWrite →
      (s.ring.Overwrites ↔ ringSize ≤ s.ring.pending)) ∧
    ∀ s, RoomyRun session (args.playStart synth inputs) s → s.AboutToWrite →
      ¬ s.ring.Overwrites := by
  intro session
  refine ⟨?_, ?_⟩
  · intro s hrun hwrite
    exact (hrun.ringInv (ringInv_start synth)).overwrites_iff hwrite.2
  · intro s hrun hwrite
    have h := (roomyInv_start args synth inputs).run hrun
    rw [h.overwrites_iff hwrite.2, RingState.pending, h.published_of_idle hwrite.2]
    have hfits := h.fits
    have hqueued := List.length_pos_of_ne_nil hwrite.1
    have hpos := ringSize_pos
    omega

/-- A second press is taken up while the command of the first is pending. Its own second post
finds two commands pending and overwrites neither. -/
theorem post_overwrites_iff_second_press :
    let args : Arguments := {}
    let session := args.session win32KeySink []
    let inputs : List LoopInput := [⟨⟨36, true⟩, 1⟩, ⟨⟨40, true⟩, 1⟩]
    ∃ s, RoomyRun session (args.playStart ⟨Vector.replicate ringSize 0, 0, 0, 0⟩ inputs) s ∧
      s.AboutToWrite ∧ s.ring.pending = 2 ∧ s.queued = [noteOffWord 0 48] ∧
      ¬ s.ring.Overwrites := by
  intro args session inputs
  let start := args.playStart ⟨Vector.replicate ringSize 0, 0, 0, 0⟩ inputs
  let held := (iterate session args.loopStart ⟨⟨36, true⟩, 1⟩).1
  have hfirst : PlayStep session start .event _ :=
    .event start ⟨⟨36, true⟩, 1⟩ [⟨⟨40, true⟩, 1⟩] rfl rfl rfl
  have hpress : (notePosts (iterate session start.loop ⟨⟨36, true⟩, 1⟩).2).map NotePost.word =
      [noteOnWord 0 48] := by decide
  rw [hpress] at hfirst
  have hrun : RoomyRun session start _ := .single ⟨_, hfirst, fun _ => by decide⟩
  have hposted := hrun.post rfl rfl
  -- The second event is taken up while the first command is pending.
  have hsecond : PlayStep session
      ⟨held, [⟨⟨40, true⟩, 1⟩], [], start.ring.post (noteOnWord 0 48)⟩ .event _ :=
    .event _ ⟨⟨40, true⟩, 1⟩ [] rfl rfl rfl
  have hpressOver : (notePosts (iterate session held ⟨⟨40, true⟩, 1⟩).2).map NotePost.word =
      [noteOnWord 0 52, noteOffWord 0 48] := by decide
  rw [hpressOver] at hsecond
  have hqueued : RoomyRun session start _ := hposted.tail ⟨_, hsecond, fun _ => by decide⟩
  have hposted₂ := hqueued.post rfl rfl
  refine ⟨_, hposted₂, ⟨List.cons_ne_nil _ _, rfl⟩, rfl, rfl, ?_⟩
  exact (post_overwrites_iff args win32KeySink [] _ inputs).2 _ hposted₂
    ⟨List.cons_ne_nil _ _, rfl⟩

/-! ### A stalled audio stream -/

/-- The ring after a call of `post_note_on` or `post_note_off`, with no step of the consumer in
between. -/
def RingState.call (s : RingState) (p : NotePost) : RingState :=
  { s with
    synth := s.synth.post p
    posted := s.posted ++ [p.word]
    published := s.posted ++ [p.word] }

/-- A call posts the word of its post. -/
theorem call_eq (s : RingState) (p : NotePost) : s.call p = s.post p.word := by
  rw [RingState.call, post_eq]
  rfl

/-- While the audio thread asks for nothing, the posts of an iteration all go through. -/
theorem stalled_posts (session : Session) (posts : List NotePost) {s : PlayState}
    (hqueued : s.queued = posts.map NotePost.word) (hidle : s.ring.posting = false) :
    RoomyRun session s { s with queued := [], ring := posts.foldl RingState.call s.ring } := by
  induction posts generalizing s with
  | nil =>
    rw [List.map_nil] at hqueued
    rw [List.foldl_nil, ← hqueued]
    exact .refl
  | cons p posts ih =>
    have hfirst := @RoomyRun.post session s s .refl _ _ hqueued hidle
    rw [← call_eq] at hfirst
    exact hfirst.trans (@ih { s with queued := posts.map NotePost.word, ring := s.ring.call p } rfl
      hidle)

/-- Calls leave the producer idle. -/
theorem foldl_call_posting {s : RingState} (hidle : s.posting = false) (posts : List NotePost) :
    (posts.foldl RingState.call s).posting = false := by
  induction posts generalizing s with
  | nil => exact hidle
  | cons p posts ih => exact @ih (s.call p) hidle

/-- Without a consumer every call adds a pending command. -/
theorem foldl_call_pending {s : RingState} (h : RingInv s) (hidle : s.posting = false)
    (posts : List NotePost) :
    (posts.foldl RingState.call s).pending = s.pending + posts.length := by
  induction posts generalizing s with
  | nil => rfl
  | cons p posts ih =>
    obtain ⟨t, hwrite, hpublish⟩ := post_steps hidle p.word
    rw [← call_eq] at hpublish
    have htaken := h.taken_le
    have hcall : (s.call p).pending = s.pending + 1 := by
      simp only [RingState.pending, RingState.call, List.length_append, List.length_singleton,
        h.published_of_idle hidle] at htaken ⊢
      omega
    rw [List.foldl_cons, ih ((h.step hwrite).step hpublish) hidle, hcall, List.length_cons]
    omega

/-- A run of the main loop during which the audio thread asks for nothing. -/
theorem stalled_run (session : Session) (inputs rest : List LoopInput) {s : PlayState}
    (hsource : s.source = inputs ++ rest) (hqueued : s.queued = [])
    (hidle : s.ring.posting = false) :
    PlayRun session s
      { loop := (mainLoop session s.loop inputs).1
        source := rest
        queued := []
        ring := (notePosts (mainLoop session s.loop inputs).2).foldl RingState.call s.ring } := by
  induction inputs generalizing s with
  | nil =>
    rw [List.nil_append] at hsource
    rw [← hsource, ← hqueued]
    exact .refl
  | cons input inputs ih =>
    let posts := notePosts (iterate session s.loop input).2
    let s₁ : PlayState := { s with
      loop := (iterate session s.loop input).1
      source := inputs ++ rest
      queued := posts.map NotePost.word }
    let s₂ : PlayState := { s₁ with queued := [], ring := posts.foldl RingState.call s.ring }
    have hevent : PlayStep session s .event s₁ := .event s input _ hsource hqueued hidle
    have hposts : RoomyRun session s₁ s₂ := stalled_posts session posts rfl hidle
    have hidle₂ : s₂.ring.posting = false := foldl_call_posting hidle posts
    have hrest := @ih s₂ rfl rfl hidle₂
    have hwhole := (hposts.playRun.trans hrest).head ⟨_, hevent⟩
    simp only [mainLoop, exec_cons, notePosts_append, List.foldl_append] at hwhole ⊢
    exact hwhole

/-- A stream that posts a full ring of commands and then one more overwrites a pending command
when the audio thread asks for nothing in the meantime. -/
theorem overwrites_of_stalled (session : Session) (args : Arguments) (synth : Synth)
    (inputs : List LoopInput) (input : LoopInput)
    (hfull : ringSize ≤ (notePosts (mainLoop session args.loopStart inputs).2).length)
    (hmore : notePosts (iterate session (mainLoop session args.loopStart inputs).1 input).2 ≠ []) :
    ∃ s, PlayRun session (args.playStart synth (inputs ++ [input])) s ∧
      s.AboutToWrite ∧ s.ring.Overwrites := by
  have hstalled := stalled_run session inputs [input]
    (s := args.playStart synth (inputs ++ [input])) rfl rfl rfl
  let posts := notePosts (mainLoop session args.loopStart inputs).2
  have hidle : (posts.foldl RingState.call (RingState.start synth)).posting = false :=
    foldl_call_posting rfl posts
  have hpending : ringSize ≤ (posts.foldl RingState.call (RingState.start synth)).pending := by
    rw [foldl_call_pending (ringInv_start synth) rfl]
    exact hfull.trans (Nat.le_add_left _ _)
  have hevent : PlayStep session _ .event _ :=
    .event ⟨(mainLoop session args.loopStart inputs).1, [input], [],
      posts.foldl RingState.call (RingState.start synth)⟩ input [] rfl rfl hidle
  refine ⟨_, hstalled.tail ⟨_, hevent⟩, ⟨?_, hidle⟩, ?_⟩
  · simpa using hmore
  · exact ((hstalled.ringInv (ringInv_start synth)).overwrites_iff hidle).mpr hpending

/-- Repeating what is emitted repeats its posts. -/
theorem length_notePosts_replicate (n : ℕ) (effects : List Effect) :
    (notePosts (List.replicate n effects).flatten).length = n * (notePosts effects).length := by
  induction n with
  | zero => simp [notePosts]
  | succ n ih =>
    rw [List.replicate_succ, List.flatten_cons, notePosts_append, List.length_append, ih,
      Nat.succ_mul, Nat.add_comm]

/-- With default arguments and an audio stream that asks for nothing, 1366 taps of one key
overwrite a command: a tap posts three, so the last release finds 4096 pending. -/
theorem stalled_audio_overwrites :
    let args : Arguments := {}
    let session := args.session win32KeySink (List.replicate numKeys 0)
    let tap : List LoopInput := [⟨⟨36, true⟩, 1⟩, ⟨⟨36, false⟩, 1⟩]
    let synth : Synth := ⟨Vector.replicate ringSize 0, 0, 0, 0⟩
    ∃ s, PlayRun session (args.playStart synth (List.replicate 1366 tap).flatten) s ∧
      s.AboutToWrite ∧ s.ring.Overwrites := by
  intro args session tap synth
  let press : LoopInput := ⟨⟨36, true⟩, 1⟩
  let release : LoopInput := ⟨⟨36, false⟩, 1⟩
  have hlast (n : ℕ) : (List.replicate (n + 1) tap).flatten =
      ((List.replicate n tap).flatten ++ [press]) ++ [release] := by
    rw [List.replicate_succ', List.flatten_append, List.append_assoc]
    rfl
  have htaps (n : ℕ) : mainLoop session args.loopStart (List.replicate n tap).flatten =
      (args.loopStart, (List.replicate n (mainLoop session args.loopStart tap).2).flatten) :=
    exec_replicate (by decide) n
  have htap : (notePosts (mainLoop session args.loopStart tap).2).length = 3 := by decide
  have hpress : (notePosts (mainLoop session args.loopStart [press]).2).length = 1 := by decide
  have hloop (n : ℕ) : mainLoop session args.loopStart ((List.replicate n tap).flatten ++ [press]) =
      ((mainLoop session args.loopStart [press]).1,
        (List.replicate n (mainLoop session args.loopStart tap).2).flatten ++
          (mainLoop session args.loopStart [press]).2) := by
    rw [mainLoop_append, htaps]
  rw [hlast 1365]
  apply overwrites_of_stalled
  · rw [hloop, notePosts_append, List.length_append, length_notePosts_replicate, htap, hpress]
    decide
  · rw [hloop]
    decide

end Sussybard

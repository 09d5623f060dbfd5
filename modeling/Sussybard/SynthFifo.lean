import Sussybard.SynthRing

/-!
# The command ring refines a first-in first-out queue

As long as the producer writes only while fewer than `RingSize` words wait
between the counters, the consumer takes exactly the posted words in order. The
full ring is included: it is reached by a write that starts one slot short.
-/

namespace Sussybard

open Relation

/-- The producer respects the ring: a step that writes a slot starts with
`write_count - read_count` below the ring size. -/
def RoomToWrite (s : RingState) : RingAction → Prop
  | .write _ => s.synth.writeCount - s.synth.readCount < 4096
  | _ => True

/-- Runs of any interleaving in which every write finds room. -/
def GuardedRun : RingState → RingState → Prop :=
  ReflTransGen fun s t => ∃ a, RingStep s a t ∧ RoomToWrite s a

/-- What holds in addition when every write finds room: no more than a ring of words is
ahead of the consumer, and the words taken are the first words published. -/
structure GuardedInv (s : RingState) : Prop extends RingInv s where
  fits : s.posted.length ≤ s.taken.length + ringSize
  taken_prefix : s.taken <+: s.published

/-- The freshly started ring satisfies the guarded invariant. -/
theorem guardedInv_start (synth : Synth) : GuardedInv (RingState.start synth) where
  toRingInv := ringInv_start synth
  fits := Nat.zero_le _
  taken_prefix := List.prefix_rfl

/-- Room between the 32-bit counters is room in the history, even across their wrap. -/
theorem GuardedInv.posted_lt {s : RingState} (h : GuardedInv s)
    (hroom : s.synth.writeCount - s.synth.readCount < 4096) :
    s.posted.length < s.taken.length + ringSize := by
  have hle := h.taken_le.trans h.published_prefix.length_le
  have hfits := h.fits
  rw [h.writeCount_eq, h.readCount_eq, UInt32.lt_iff_toNat_lt, UInt32.toNat_sub] at hroom
  simp only [UInt32.toNat_ofNat', UInt32.reduceToNat, ringSize] at *
  omega

/-- The word under the read position extends the words taken by the next published one. -/
theorem GuardedInv.taken_concat {s : RingState} (h : GuardedInv s)
    (hlt : s.taken.length < s.published.length) :
    s.taken ++ [s.synth.current] <+: s.published := by
  have hcurrent := h.current_eq h.fits hlt
  have htake := List.take_concat_get' s.published s.taken.length hlt
  rw [List.getElem?_eq_getElem hlt, Option.some.injEq] at hcurrent
  rw [hcurrent, ← List.prefix_iff_eq_take.mp h.taken_prefix] at htake
  rw [htake]
  exact List.take_prefix _ _

/-- Every guarded step keeps the guarded invariant. -/
theorem GuardedInv.step {s t : RingState} {a : RingAction} (h : GuardedInv s)
    (hstep : RingStep s a t) (hroom : RoomToWrite s a) : GuardedInv t := by
  refine ⟨h.toRingInv.step hstep, ?_, ?_⟩
  · have hfits := h.fits
    cases hstep with
    | write word hidle =>
      have := h.posted_lt hroom
      simp only [List.length_append, List.length_singleton]
      omega
    | take d hmixing hmore =>
      simp only [List.length_append, List.length_singleton]
      omega
    | publish _ | load _ | finish _ _ _ => exact hfits
  · have hpre := h.taken_prefix
    cases hstep with
    | publish hposting => exact hpre.trans h.published_prefix
    | take d hmixing hmore =>
      have hlt := h.taken_lt_loaded hmixing hmore
      exact h.taken_concat (hlt.trans_le (h.loaded_prefix d hmixing).length_le)
    | write _ _ | load _ | finish _ _ _ => exact hpre

/-- Every guarded run keeps the guarded invariant. -/
theorem GuardedInv.run {s t : RingState} (h : GuardedInv s) (hrun : GuardedRun s t) :
    GuardedInv t := by
  induction hrun with
  | refl => exact h
  | tail _ hstep ih =>
    obtain ⟨a, ha, hroom⟩ := hstep
    exact ih.step ha hroom

/-- What a step does to the queue: publication puts the posted word in, taking gets the
word under the read position out, and every other step is silent. -/
def queueLabel (s : RingState) : RingAction → Fifo.Label UInt32
  | .publish => match s.posted.getLast? with
    | some word => .put word
    | none => .silent
  | .take => .get s.synth.current
  | _ => .silent

/-- **Refinement.** Every guarded step of the ring is a step of the unbounded queue. -/
theorem ringStep_refines_fifo {s t : RingState} {a : RingAction} (h : GuardedInv s)
    (hstep : RingStep s a t) : Fifo.Step s.queue (queueLabel s a) t.queue := by
  cases hstep with
  | publish hposting =>
    obtain ⟨word, hword⟩ := h.published_of_posting hposting
    have hqueue : s.posted.drop s.taken.length = s.queue ++ [word] := by
      rw [hword, List.drop_append_of_le_length h.taken_le]
      rfl
    simp only [queueLabel, hword, List.getLast?_concat]
    simp only [RingState.queue] at hqueue ⊢
    rw [← hword, hqueue]
    exact .put _ _
  | take d hmixing hmore =>
    have hlt := (h.taken_lt_loaded hmixing hmore).trans_le (h.loaded_prefix d hmixing).length_le
    have hqueue : s.queue = s.synth.current :: s.published.drop (s.taken.length + 1) := by
      have hcurrent := h.current_eq h.fits hlt
      rw [List.getElem?_eq_getElem hlt, Option.some.injEq] at hcurrent
      rw [RingState.queue, List.drop_eq_getElem_cons hlt, hcurrent]
    rw [hqueue]
    simpa [queueLabel, RingState.queue] using
      Fifo.Step.get (s.published.drop (s.taken.length + 1)) s.synth.current
  | write word hidle => exact .silent _
  | load hidle => exact .silent _
  | finish d hmixing hdone => exact .silent _

/-- What a step takes is what its label gets out, and what it publishes is what its label
puts in. -/
theorem queueLabel_logs {s t : RingState} {a : RingAction} (h : GuardedInv s)
    (hstep : RingStep s a t) :
    t.taken = s.taken ++ (queueLabel s a).gets ∧
      t.published = s.published ++ (queueLabel s a).puts := by
  cases hstep with
  | publish hposting =>
    obtain ⟨word, hword⟩ := h.published_of_posting hposting
    simp [queueLabel, hword, Fifo.Label.gets, Fifo.Label.puts]
  | take _ _ _ | write _ _ | load _ | finish _ _ _ =>
    simp [queueLabel, Fifo.Label.gets, Fifo.Label.puts]

/-- Every guarded run of the ring is a run of the unbounded queue that puts in what is
published and gets out what is taken. -/
theorem guardedRun_refines_fifo {s : RingState} (synth : Synth)
    (hrun : GuardedRun (RingState.start synth) s) :
    ∃ labels, Fifo.Run [] labels s.queue ∧ s.taken = labels.flatMap Fifo.Label.gets ∧
      s.published = labels.flatMap Fifo.Label.puts := by
  induction hrun with
  | refl => exact ⟨[], .nil _, rfl, rfl⟩
  | tail hrun hstep ih =>
    obtain ⟨labels, hfifo, htaken, hpublished⟩ := ih
    obtain ⟨a, ha, -⟩ := hstep
    have h := (guardedInv_start synth).run hrun
    obtain ⟨hgets, hputs⟩ := queueLabel_logs h ha
    refine ⟨labels ++ [queueLabel _ a], hfifo.concat (ringStep_refines_fifo h ha), ?_, ?_⟩
    · simp [hgets, htaken]
    · simp [hputs, hpublished]

/-- A consumer whose loop has ended has taken every word it loaded, while fewer than
`2 ^ 32` words have been posted. -/
theorem GuardedInv.loaded_taken {s : RingState} (h : GuardedInv s)
    (hposts : s.posted.length < 2 ^ 32) {d : Drain} (hmixing : s.mixing = some d)
    (hdone : ¬ s.synth.readCount < d.target) : d.loaded <+: s.taken := by
  have hpublished := h.published_prefix.length_le
  have hloaded := (h.loaded_prefix d hmixing).length_le
  have htaken := h.taken_le_loaded d hmixing
  rw [h.readCount_eq, h.target_eq d hmixing, UInt32.lt_iff_toNat_lt] at hdone
  simp only [UInt32.toNat_ofNat'] at hdone
  rw [Nat.mod_eq_of_lt (by omega), Nat.mod_eq_of_lt (by omega)] at hdone
  exact List.prefix_of_prefix_length_le (h.loaded_prefix d hmixing) h.taken_prefix (by omega)

/-- **The synth's ring is a first-in first-out queue.** After `on_backend_start`, in every
interleaving of posts and `mix_samples` calls with fewer than `2 ^ 32` posts whose slot
writes find room, the words taken are a prefix of the words published, these are a prefix
of the words posted, and a `mix_samples` call whose loop has ended has taken every word
that was published when it loaded its target. -/
theorem ring_refines_queue (synth : Synth) (s : RingState)
    (hrun : GuardedRun (RingState.start synth) s) (hposts : s.posted.length < 2 ^ 32) :
    s.taken <+: s.published ∧ s.published <+: s.posted ∧
      ∀ d, s.mixing = some d → ¬ s.synth.readCount < d.target → d.loaded <+: s.taken := by
  have h := (guardedInv_start synth).run hrun
  obtain ⟨labels, hfifo, htaken, hpublished⟩ := guardedRun_refines_fifo synth hrun
  have hconserves := hfifo.conserves
  rw [← htaken, List.nil_append, ← hpublished] at hconserves
  exact ⟨⟨s.queue, hconserves⟩, h.published_prefix, fun _ => h.loaded_taken hposts⟩

/-- A second note is written while `mix_samples` drains the first, and published when it has
taken that: the next call takes it. -/
theorem ring_refines_queue_overlapping_post :
    ∃ s, GuardedRun (RingState.start ⟨Vector.replicate ringSize 0, 0, 0, 0⟩) s ∧
      s.published = [noteOnWord 0 48, noteOnWord 0 50] ∧
      s.taken = [noteOnWord 0 48, noteOnWord 0 50] := by
  let s₀ := RingState.start ⟨Vector.replicate ringSize 0, 0, 0, 0⟩
  let first := noteOnWord 0 48
  let second := noteOnWord 0 50
  have hroom₀ : RoomToWrite s₀ (.write first) := (by decide : (0 : UInt32) - 0 < 4096)
  have hwritten : GuardedRun s₀ _ := .single ⟨_, .write s₀ first rfl, hroom₀⟩
  have hpublished := hwritten.tail ⟨_, .publish _ rfl, trivial⟩
  have hloaded := hpublished.tail ⟨_, .load _ rfl, trivial⟩
  -- The second write comes between the load and the take of the first call.
  have hroom₁ : (1 : UInt32) - 0 < 4096 := by decide
  have hoverlaps := hloaded.tail ⟨_, .write _ second rfl, hroom₁⟩
  have htaken := hoverlaps.tail ⟨_, .take _ ⟨1, [first]⟩ rfl (by decide), trivial⟩
  have hpublished₂ := htaken.tail ⟨_, .publish _ rfl, trivial⟩
  have hfinished := hpublished₂.tail ⟨_, .finish _ ⟨1, [first]⟩ rfl (by decide), trivial⟩
  have hloaded₂ := hfinished.tail ⟨_, .load _ rfl, trivial⟩
  have hrun := hloaded₂.tail ⟨_, .take _ ⟨2, [first, second]⟩ rfl (by decide), trivial⟩
  have hprefix := (ring_refines_queue _ _ hrun (by decide)).1
  exact ⟨_, hrun, rfl, hprefix.eq_of_length rfl⟩

end Sussybard

import Sussybard.SynthFifo

/-!
# The command ring across the wrap of its counters

The counters of the ring run freely modulo `2 ^ 32`, and a slot number is a
counter modulo the ring size, so a wrapped counter still names the right slot.
The loop of `mix_samples` compares its position with its target by `<`. A call
whose target has wrapped and whose position has not therefore leaves its loop
at once, whatever is pending.
-/

namespace Sussybard

open Relation

/-- The steps that may happen while a `mix_samples` call is inside its loop: its own takes,
and posts that find room in the ring. -/
def LoopStep (s t : RingState) : Prop :=
  RingStep s .take t ∨ RingStep s .publish t ∨
    ∃ word, RingStep s (.write word) t ∧ RoomToWrite s (.write word)

/-- The ring after the load that begins a `mix_samples` call. -/
def RingState.load (s : RingState) : RingState :=
  { s with mixing := some ⟨s.synth.atomicWriteCount, s.published⟩ }

/-- A `mix_samples` call that loads its target in `s` leaves its loop in `t`. -/
def DrainsTo (s t : RingState) : Prop :=
  ReflTransGen LoopStep s.load t ∧ ¬ t.synth.readCount < s.synth.atomicWriteCount

/-- The number of pending commands by the counters, `(write_count - read_count)` modulo
`2 ^ 32`, with the producer's counter as the consumer sees it. -/
def RingState.distance (s : RingState) : ℕ :=
  (s.synth.atomicWriteCount - s.synth.readCount).toNat

/-- At most a ring of commands is pending, by either counter of the producer. The two differ
only while a post is under way. -/
def RingState.PendingFits (s : RingState) : Prop :=
  (s.synth.writeCount - s.synth.readCount).toNat ≤ ringSize ∧ s.distance ≤ ringSize

/-- The pending commands in posting order: the last ones published, as many as the counters
are apart. -/
def RingState.pendingWords (s : RingState) : List UInt32 :=
  s.published.drop (s.published.length - s.distance)

/-- The call that began in `s` and ended in `t` applied exactly the pending commands, in
order, and ended at its target. -/
def DrainedExactly (s t : RingState) : Prop :=
  t.taken = s.taken ++ s.pendingWords ∧ t.synth.readCount = s.synth.atomicWriteCount

/-- The position in the history of the first pending command. -/
def RingState.first (s : RingState) : ℕ := s.published.length - s.distance

/-- The counters are no further apart than the history reaches. -/
theorem RingInv.distance_le {s : RingState} (h : RingInv s) :
    s.distance ≤ s.published.length - s.taken.length := by
  have hle := h.taken_le
  rw [RingState.distance, h.atomicWriteCount_eq, h.readCount_eq, UInt32.toNat_sub]
  simp only [UInt32.toNat_ofNat']
  omega

/-- While less than `2 ^ 32` commands wait, the pending commands are the whole queue. -/
theorem RingInv.pendingWords_eq_queue {s : RingState} (h : RingInv s)
    (hfew : s.pending < 2 ^ 32) : s.pendingWords = s.queue := by
  have hle := h.taken_le
  have hdistance : s.distance = s.published.length - s.taken.length := by
    rw [RingState.pending] at hfew
    rw [RingState.distance, h.atomicWriteCount_eq, h.readCount_eq, UInt32.toNat_sub]
    simp only [UInt32.toNat_ofNat']
    omega
  rw [RingState.pendingWords, RingState.queue, hdistance, Nat.sub_sub_self hle]

/-- The read counter names the position of the first pending command. -/
theorem RingInv.readCount_eq_first {s : RingState} (h : RingInv s) :
    s.synth.readCount = UInt32.ofNat s.first := by
  have hle := h.distance_le
  apply UInt32.toNat_inj.mp
  rw [RingState.first]
  rw [RingState.distance, h.atomicWriteCount_eq, h.readCount_eq, UInt32.toNat_sub] at hle ⊢
  simp only [UInt32.toNat_ofNat'] at hle ⊢
  omega

/-- What holds inside the loop of a call that began in `s` with its position at or below its
target: `taken` rounds are done, they applied the first pending commands, and the next
pending one is still in its slot. -/
structure InLoop (s t : RingState) (taken : ℕ) : Prop extends RingInv t where
  mixing_eq : t.mixing = s.load.mixing
  taken_le_distance : taken ≤ s.distance
  readCount_toNat : t.synth.readCount.toNat = s.synth.readCount.toNat + taken
  taken_eq : t.taken = s.taken ++ s.pendingWords.take taken
  published_ext : s.published <+: t.published
  fits : t.posted.length ≤ s.first + taken + ringSize

/-- The load enters the loop with nothing done. -/
theorem RingInv.inLoop_load {s : RingState} (h : RingInv s) (hidle : s.mixing = none)
    (hfits : s.PendingFits) : InLoop s s.load 0 where
  toRingInv := h.step (.load s hidle)
  mixing_eq := rfl
  taken_le_distance := Nat.zero_le _
  readCount_toNat := rfl
  taken_eq := (List.append_nil _).symm
  published_ext := List.prefix_rfl
  fits := by
    obtain ⟨hwrite, hpublished⟩ := hfits
    have hdistance := h.distance_le
    have hpending : s.posted.length ≤ s.first + ringSize := by
      cases hp : s.posting with
      | false =>
        rw [← h.published_of_idle hp, RingState.first]
        omega
      | true =>
        obtain ⟨word, hword⟩ := h.published_of_posting hp
        have hlength : s.posted.length = s.published.length + 1 := by simp [hword]
        rw [h.writeCount_eq, h.readCount_eq_first, UInt32.toNat_sub] at hwrite
        simp only [UInt32.toNat_ofNat', RingState.first, ringSize] at *
        omega
    exact hpending

/-- Inside the loop the read counter names the position of the next pending command. -/
theorem InLoop.readCount_eq_next {s t : RingState} {taken : ℕ} (h : InLoop s t taken)
    (hs : RingInv s) : t.synth.readCount = UInt32.ofNat (s.first + taken) := by
  apply UInt32.toNat_inj.mp
  have hlast := t.synth.readCount.toNat_lt
  rw [h.readCount_toNat, hs.readCount_eq_first] at hlast ⊢
  simp only [UInt32.toNat_ofNat'] at hlast ⊢
  omega

/-- A write that finds room by the counters finds room in the history. -/
theorem InLoop.posted_lt {s t : RingState} {taken : ℕ} (h : InLoop s t taken)
    (hs : RingInv s) (hroom : t.synth.writeCount - t.synth.readCount < 4096) :
    t.posted.length < s.first + taken + ringSize := by
  have hfits := h.fits
  have hdone := h.taken_le_distance
  have hlength := h.published_ext.length_le.trans h.published_prefix.length_le
  have hdistance := hs.distance_le
  rw [h.writeCount_eq, h.readCount_eq_next hs, UInt32.lt_iff_toNat_lt, UInt32.toNat_sub] at hroom
  simp only [UInt32.toNat_ofNat', UInt32.reduceToNat, RingState.first, ringSize] at *
  omega

/-- The word that a round of the loop takes is the next pending one. -/
theorem InLoop.current_eq {s t : RingState} {taken : ℕ} (h : InLoop s t taken) (hs : RingInv s)
    (hlt : taken < s.distance) : s.pendingWords[taken]? = some t.synth.current := by
  have hdistance := hs.distance_le
  have hposition : s.first + taken < s.published.length := by
    rw [RingState.first]
    omega
  have hcurrent := h.toRingInv.current_at (h.readCount_eq_next hs) h.fits
    (hposition.trans_le h.published_ext.length_le)
  rw [RingState.pendingWords, List.getElem?_drop, ← hcurrent]
  obtain ⟨rest, hrest⟩ := h.published_ext
  rw [← hrest, List.getElem?_append_left hposition]
  rfl

/-- A call whose target lies at or above its position has that much to do. -/
theorem distance_of_le {s : RingState} (hordered : s.synth.readCount ≤ s.synth.atomicWriteCount) :
    s.synth.readCount.toNat + s.distance = s.synth.atomicWriteCount.toNat := by
  have hle := UInt32.le_iff_toNat_le.mp hordered
  rw [RingState.distance, UInt32.toNat_sub_of_le _ _ hordered]
  omega

/-- A round of the loop takes the next pending command. -/
theorem InLoop.take {s t u : RingState} {taken : ℕ} (h : InLoop s t taken) (hs : RingInv s)
    (hordered : s.synth.readCount ≤ s.synth.atomicWriteCount) (hstep : RingStep t .take u) :
    InLoop s u (taken + 1) := by
  have hinv := h.toRingInv.step hstep
  cases hstep with
  | take d hmixing hmore =>
    obtain rfl : d = ⟨s.synth.atomicWriteCount, s.published⟩ :=
      Option.some.inj (hmixing.symm.trans h.mixing_eq)
    have hread := h.readCount_toNat
    have htarget := distance_of_le hordered
    have hlt : taken < s.distance := by
      have hmore' := UInt32.lt_iff_toNat_lt.mp hmore
      simp only at hmore'
      omega
    have hlast := s.synth.atomicWriteCount.toNat_lt
    exact {
      toRingInv := hinv
      mixing_eq := h.mixing_eq
      taken_le_distance := hlt
      readCount_toNat := by
        simp only [Synth.advance, UInt32.toNat_add, UInt32.toNat_one, hread]
        omega
      taken_eq := by
        simp only
        rw [h.taken_eq, List.append_assoc, List.take_add_one, h.current_eq hs hlt]
        rfl
      published_ext := h.published_ext
      fits := by
        have := h.fits
        simp only
        omega }

/-- A post that finds room leaves the pending commands alone. -/
theorem InLoop.write {s t u : RingState} {taken : ℕ} {word : UInt32} (h : InLoop s t taken)
    (hs : RingInv s) (hstep : RingStep t (.write word) u) (hroom : RoomToWrite t (.write word)) :
    InLoop s u taken := by
  have hinv := h.toRingInv.step hstep
  cases hstep with
  | write _ hidle =>
    have hlt := h.posted_lt hs hroom
    exact {
      toRingInv := hinv
      mixing_eq := h.mixing_eq
      taken_le_distance := h.taken_le_distance
      readCount_toNat := h.readCount_toNat
      taken_eq := h.taken_eq
      published_ext := h.published_ext
      fits := by
        simp only [List.length_append, List.length_singleton]
        omega }

/-- So does a publication. -/
theorem InLoop.publish {s t u : RingState} {taken : ℕ} (h : InLoop s t taken)
    (hstep : RingStep t .publish u) : InLoop s u taken := by
  have hinv := h.toRingInv.step hstep
  cases hstep with
  | publish hposting =>
    exact {
      toRingInv := hinv
      mixing_eq := h.mixing_eq
      taken_le_distance := h.taken_le_distance
      readCount_toNat := h.readCount_toNat
      taken_eq := h.taken_eq
      published_ext := h.published_ext.trans h.published_prefix
      fits := h.fits }

/-- However the posts and takes alternate, the loop keeps its invariant. -/
theorem InLoop.run {s t : RingState} (hs : RingInv s) (hidle : s.mixing = none)
    (hfits : s.PendingFits) (hordered : s.synth.readCount ≤ s.synth.atomicWriteCount)
    (hrun : ReflTransGen LoopStep s.load t) : ∃ taken, InLoop s t taken := by
  induction hrun with
  | refl => exact ⟨0, hs.inLoop_load hidle hfits⟩
  | tail _ hstep ih =>
    obtain ⟨taken, h⟩ := ih
    rcases hstep with htake | hpublish | ⟨word, hwrite, hroom⟩
    · exact ⟨taken + 1, h.take hs hordered htake⟩
    · exact ⟨taken, h.publish hpublish⟩
    · exact ⟨taken, h.write hs hwrite hroom⟩

/-- A loop whose invariant holds at its end has drained exactly the pending commands. -/
theorem InLoop.drainedExactly {s t : RingState} {taken : ℕ} (h : InLoop s t taken)
    (hs : RingInv s) (hordered : s.synth.readCount ≤ s.synth.atomicWriteCount)
    (hend : ¬ t.synth.readCount < s.synth.atomicWriteCount) : DrainedExactly s t := by
  have hread := h.readCount_toNat
  have hdone := h.taken_le_distance
  have htarget := distance_of_le hordered
  rw [UInt32.lt_iff_toNat_lt] at hend
  obtain rfl : taken = s.distance := by omega
  constructor
  · rw [h.taken_eq, List.take_of_length_le]
    have := hs.distance_le
    simp only [RingState.pendingWords, List.length_drop]
    omega
  · apply UInt32.toNat_inj.mp
    omega

/-- The call that no post overlaps leaves its loop where `mix_samples` says. -/
theorem drainsTo_mixSamples (s : RingState) :
    DrainsTo s
      { s.load with
        synth := s.synth.mixSamples.2
        taken := s.taken ++ s.synth.mixSamples.1 } := by
  obtain ⟨htakes, hend⟩ := drain_takes (s := s.load) (d := ⟨_, _⟩) rfl
  exact ⟨ReflTransGen.mono (fun _ _ hstep => .inl hstep) _ _ htakes, hend⟩

/-- A run has drained every command it posted, `n` in all, and both threads are idle. -/
structure KeptUp (synth : Synth) (n : ℕ) (s : RingState) : Prop where
  run : RingRun (.start synth) s
  posting_eq : s.posting = false
  mixing_eq : s.mixing = none
  posted_length : s.posted.length = n
  taken_length : s.taken.length = n

/-- A run that posts one more command. -/
theorem KeptUp.run_post {synth : Synth} {n : ℕ} {s : RingState} (h : KeptUp synth n s)
    (word : UInt32) : RingRun (.start synth) (s.post word) :=
  h.run.post h.posting_eq word

/-- The counters after one more command. -/
theorem KeptUp.counters {synth : Synth} {n : ℕ} {s : RingState} (h : KeptUp synth n s)
    (word : UInt32) :
    (s.post word).synth.readCount = UInt32.ofNat n ∧
      (s.post word).synth.writeCount = UInt32.ofNat (n + 1) ∧
      (s.post word).synth.atomicWriteCount = UInt32.ofNat (n + 1) := by
  have hinv := (ringInv_start synth).run (h.run_post word)
  have hposted : (s.post word).posted.length = n + 1 := by
    simp [RingState.post, h.posted_length]
  rw [hinv.readCount_eq, hinv.writeCount_eq, hinv.atomicWriteCount_eq,
    hinv.published_of_idle h.posting_eq, hposted]
  exact ⟨congrArg UInt32.ofNat h.taken_length, rfl, rfl⟩

/-- One more command fits the ring, at every position of the counters. -/
theorem KeptUp.distance_post {synth : Synth} {n : ℕ} {s : RingState} (h : KeptUp synth n s)
    (word : UInt32) : (s.post word).distance = 1 ∧ (s.post word).PendingFits := by
  obtain ⟨hread, hwrite, hpublished⟩ := h.counters word
  have hone : UInt32.ofNat (n + 1) - UInt32.ofNat n = 1 := by
    rw [← ofNat_succ, UInt32.add_comm, UInt32.add_sub_cancel]
  have hdistance : (s.post word).distance = 1 := by
    rw [RingState.distance, hread, hpublished, hone]
    rfl
  refine ⟨hdistance, ?_, ?_⟩
  · rw [hread, hwrite, hone]
    decide
  · rw [hdistance]
    decide

/-- As long as the counters have not wrapped, a consumer can keep up with the producer
command by command. -/
theorem keptUp_run (synth : Synth) {n : ℕ} (hn : n < 2 ^ 32) : ∃ s, KeptUp synth n s := by
  induction n with
  | zero => exact ⟨.start synth, .refl, rfl, rfl, rfl, rfl⟩
  | succ n ih =>
    obtain ⟨s, h⟩ := ih (by omega)
    let word := noteOnWord 0 60
    have hinv := (ringInv_start synth).run (h.run_post word)
    obtain ⟨hread, hwrite, hpublished⟩ := h.counters word
    obtain ⟨hdistance, hfits⟩ := h.distance_post word
    have hordered : (s.post word).synth.readCount ≤ (s.post word).synth.atomicWriteCount := by
      rw [hread, hpublished, UInt32.le_iff_toNat_le]
      simp only [UInt32.toNat_ofNat']
      omega
    obtain ⟨hloop, hend⟩ := drainsTo_mixSamples (s.post word)
    obtain ⟨taken, hlast⟩ := InLoop.run hinv h.mixing_eq hfits hordered hloop
    have htaken := (hlast.drainedExactly hinv hordered hend).1
    have hposted : (s.post word).posted.length = n + 1 := by
      simp [RingState.post, h.posted_length]
    exact ⟨_, {
      run := (h.run_post word).trans (mixSamples_run h.mixing_eq)
      posting_eq := h.posting_eq
      mixing_eq := h.mixing_eq
      posted_length := hposted
      taken_length := by
        have hold : (s.post word).taken.length = n := h.taken_length
        have hpending := hinv.distance_le
        simp only at htaken
        rw [htaken, List.length_append, hold, RingState.pendingWords, List.length_drop]
        omega }⟩

end Sussybard

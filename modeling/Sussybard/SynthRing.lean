import Sussybard.Synth
import Sussybard.General.Ring
import Mathlib.Logic.Relation

/-!
# Runs of the command ring

The main thread posts in two steps, the slot write and the publication of the
counter. The audio thread loads its target once per `mix_samples` call and then
takes one slot per step. Any step of one thread may come between two steps of
the other. Logs of the words posted, published and taken are carried along; no
step reads them.
-/

namespace Sussybard

open Ring

/-- A `mix_samples` call inside its loop. -/
structure Drain where
  /-- The target loaded at the start of the call. -/
  target : UInt32
  /-- The words that were published at that moment. -/
  loaded : List UInt32

/-- The ring with the positions of both threads and the three logs. -/
structure RingState where
  /-- The shared object. -/
  synth : Synth
  /-- The producer has written a slot and not yet published it. -/
  posting : Bool
  /-- The `mix_samples` call under way, if any. -/
  mixing : Option Drain
  /-- Every word written to a slot, oldest first. -/
  posted : List UInt32
  /-- The words whose publication is done. -/
  published : List UInt32
  /-- The words that `mix_samples` has taken. -/
  taken : List UInt32

/-- Both threads idle after `on_backend_start`. -/
def RingState.start (synth : Synth) : RingState where
  synth := synth.onBackendStart
  posting := false
  mixing := none
  posted := []
  published := []
  taken := []

/-- The atomic steps of both threads. -/
inductive RingAction where
  | write (word : UInt32)
  | publish
  | load
  | take
  | finish

/-- One step of either thread. -/
inductive RingStep : RingState → RingAction → RingState → Prop
  | write (s : RingState) (word : UInt32) (hidle : s.posting = false) :
      RingStep s (.write word)
        { s with synth := s.synth.writeSlot word, posting := true, posted := s.posted ++ [word] }
  | publish (s : RingState) (hposting : s.posting = true) :
      RingStep s .publish
        { s with synth := s.synth.publish, posting := false, published := s.posted }
  | load (s : RingState) (hidle : s.mixing = none) :
      RingStep s .load { s with mixing := some ⟨s.synth.atomicWriteCount, s.published⟩ }
  | take (s : RingState) (d : Drain) (hmixing : s.mixing = some d)
      (hmore : s.synth.readCount < d.target) :
      RingStep s .take { s with synth := s.synth.advance, taken := s.taken ++ [s.synth.current] }
  | finish (s : RingState) (d : Drain) (hmixing : s.mixing = some d)
      (hdone : ¬ s.synth.readCount < d.target) :
      RingStep s .finish { s with mixing := none }

/-- Runs of any interleaving of the two threads. -/
def RingRun : RingState → RingState → Prop :=
  Relation.ReflTransGen fun s t => ∃ a, RingStep s a t

/-- The words published and not yet taken: the queue that the ring stands for. -/
def RingState.queue (s : RingState) : List UInt32 := s.published.drop s.taken.length

/-- The number of commands published and not yet taken. -/
def RingState.pending (s : RingState) : ℕ := s.published.length - s.taken.length

/-- Slot numbers are positions in the history modulo the ring size, across the wrap of
the 32-bit counters. -/
theorem ringIndex_ofNat (n : ℕ) : ringIndex (UInt32.ofNat n) = n % ringSize := by
  simp only [ringIndex, ringSize, UInt32.toNat_mod, UInt32.toNat_ofNat', UInt32.reduceToNat]
  omega

/-- A counter that is one step further counts one entry more. -/
theorem ofNat_succ (n : ℕ) : UInt32.ofNat n + 1 = UInt32.ofNat (n + 1) := by
  simp [UInt32.ofNat_add]

/-- How the counters and the ring relate to the logs in every run: the counters are the
lengths of the logs modulo `2 ^ 32`, at most one posted word is unpublished, the consumer
never runs ahead of its target, and the ring records the posted words. -/
structure RingInv (s : RingState) : Prop where
  writeCount_eq : s.synth.writeCount = UInt32.ofNat s.posted.length
  atomicWriteCount_eq : s.synth.atomicWriteCount = UInt32.ofNat s.published.length
  readCount_eq : s.synth.readCount = UInt32.ofNat s.taken.length
  published_of_idle : s.posting = false → s.published = s.posted
  published_of_posting : s.posting = true → ∃ word, s.posted = s.published ++ [word]
  taken_le : s.taken.length ≤ s.published.length
  target_eq : ∀ d, s.mixing = some d → d.target = UInt32.ofNat d.loaded.length
  loaded_prefix : ∀ d, s.mixing = some d → d.loaded <+: s.published
  taken_le_loaded : ∀ d, s.mixing = some d → s.taken.length ≤ d.loaded.length
  records : Records s.synth.ring s.posted

/-- The freshly started ring satisfies the invariant. -/
theorem ringInv_start (synth : Synth) : RingInv (RingState.start synth) where
  writeCount_eq := rfl
  atomicWriteCount_eq := rfl
  readCount_eq := rfl
  published_of_idle := fun _ => rfl
  published_of_posting := by simp [RingState.start]
  taken_le := le_rfl
  target_eq := by simp [RingState.start]
  loaded_prefix := by simp [RingState.start]
  taken_le_loaded := by simp [RingState.start]
  records := Records.nil _

/-- The published words are always an initial part of the posted ones. -/
theorem RingInv.published_prefix {s : RingState} (h : RingInv s) : s.published <+: s.posted := by
  cases hp : s.posting with
  | false => simp [h.published_of_idle hp]
  | true =>
    obtain ⟨word, hword⟩ := h.published_of_posting hp
    rw [hword]
    exact List.prefix_append _ _

/-- A consumer that still has a slot to take is strictly behind the words it loaded. -/
theorem RingInv.taken_lt_loaded {s : RingState} (h : RingInv s) {d : Drain}
    (hmixing : s.mixing = some d) (hmore : s.synth.readCount < d.target) :
    s.taken.length < d.loaded.length := by
  have hle := h.taken_le_loaded d hmixing
  rw [h.readCount_eq, h.target_eq d hmixing] at hmore
  rcases hle.lt_or_eq with hlt | heq
  · exact hlt
  · rw [heq] at hmore
    exact absurd hmore (UInt32.lt_irrefl _)

/-- Every step of either thread keeps the invariant. -/
theorem RingInv.step {s t : RingState} {a : RingAction} (h : RingInv s) (hstep : RingStep s a t) :
    RingInv t := by
  cases hstep with
  | write word hidle =>
    have hpub := h.published_of_idle hidle
    exact {
      writeCount_eq := by
        simp only [Synth.writeSlot, List.length_append, List.length_singleton]
        rw [h.writeCount_eq, ofNat_succ]
      atomicWriteCount_eq := h.atomicWriteCount_eq
      readCount_eq := h.readCount_eq
      published_of_idle := by simp
      published_of_posting := fun _ => ⟨word, by rw [hpub]⟩
      taken_le := h.taken_le
      target_eq := h.target_eq
      loaded_prefix := h.loaded_prefix
      taken_le_loaded := h.taken_le_loaded
      records := h.records.push (ringIndex_lt _) (by rw [h.writeCount_eq, ringIndex_ofNat]) word }
  | publish hposting =>
    have hpre := h.published_prefix
    exact {
      writeCount_eq := h.writeCount_eq
      atomicWriteCount_eq := h.writeCount_eq
      readCount_eq := h.readCount_eq
      published_of_idle := fun _ => rfl
      published_of_posting := by simp
      taken_le := h.taken_le.trans hpre.length_le
      target_eq := h.target_eq
      loaded_prefix := fun d hd => (h.loaded_prefix d hd).trans hpre
      taken_le_loaded := h.taken_le_loaded
      records := h.records }
  | load hidle =>
    exact { h with
      target_eq := by
        rintro d ⟨rfl⟩
        exact h.atomicWriteCount_eq
      loaded_prefix := by
        rintro d ⟨rfl⟩
        exact List.prefix_rfl
      taken_le_loaded := by
        rintro d ⟨rfl⟩
        exact h.taken_le }
  | take d hmixing hmore =>
    have hlt := h.taken_lt_loaded hmixing hmore
    have hloaded := (h.loaded_prefix d hmixing).length_le
    exact { h with
      readCount_eq := by
        simp only [Synth.advance, List.length_append, List.length_singleton]
        rw [h.readCount_eq, ofNat_succ]
      taken_le := by
        simp only [List.length_append, List.length_singleton]
        omega
      taken_le_loaded := by
        intro d' hd'
        have heq : d = d' := Option.some.inj (hmixing.symm.trans hd')
        subst heq
        simp only [List.length_append, List.length_singleton]
        omega }
  | finish d hmixing hdone =>
    exact { h with
      target_eq := by simp
      loaded_prefix := by simp
      taken_le_loaded := by simp }

/-- Every run keeps the invariant. -/
theorem RingInv.run {s t : RingState} (h : RingInv s) (hrun : RingRun s t) : RingInv t := by
  induction hrun with
  | refl => exact h
  | tail _ hstep ih =>
    obtain ⟨a, ha⟩ := hstep
    exact ih.step ha

/-- The slot under the read counter holds the entry at any position that the counter names
and that is at most one ring behind the last. -/
theorem RingInv.current_at {s : RingState} (h : RingInv s) {j : ℕ}
    (hj : s.synth.readCount = UInt32.ofNat j) (hfit : s.posted.length ≤ j + ringSize)
    (hlt : j < s.published.length) : s.published[j]? = some s.synth.current := by
  have hposted : s.published[j]? = s.posted[j]? := by
    obtain ⟨rest, hrest⟩ := h.published_prefix
    rw [← hrest, List.getElem?_append_left hlt]
  obtain ⟨word, hword⟩ : ∃ word, s.posted[j]? = some word :=
    ⟨_, List.getElem?_eq_getElem (hlt.trans_le h.published_prefix.length_le)⟩
  have hslot := h.records _ word hword hfit
  have hindex : ringIndex s.synth.readCount = j % ringSize := by
    rw [hj, ringIndex_ofNat]
  have hcurrent : s.synth.ring[ringIndex s.synth.readCount]? = some s.synth.current :=
    Vector.getElem?_eq_getElem (ringIndex_lt _)
  rw [hposted, hword, ← hcurrent, hindex, hslot]

/-- A consumer that is at most one ring behind takes the word it is due. -/
theorem RingInv.current_eq {s : RingState} (h : RingInv s)
    (hfit : s.posted.length ≤ s.taken.length + ringSize)
    (hlt : s.taken.length < s.published.length) :
    s.published[s.taken.length]? = some s.synth.current :=
  h.current_at h.readCount_eq hfit hlt

/-! ### The functions of `Synth` as runs -/

/-- The ring after a whole post, with no step of the consumer in between. -/
def RingState.post (s : RingState) (word : UInt32) : RingState :=
  { s with
    synth := (s.synth.writeSlot word).publish
    posted := s.posted ++ [word]
    published := s.posted ++ [word] }

/-- A post is the write of a slot followed by its publication. -/
theorem post_steps {s : RingState} (hidle : s.posting = false) (word : UInt32) :
    ∃ t, RingStep s (.write word) t ∧ RingStep t .publish (s.post word) := by
  have hpublish := RingStep.publish
    { s with synth := s.synth.writeSlot word, posting := true, posted := s.posted ++ [word] } rfl
  rw [← hidle] at hpublish
  exact ⟨_, .write s word hidle, hpublish⟩

/-- A run goes on with a post. -/
theorem RingRun.post {r s : RingState} (hrun : RingRun r s) (hidle : s.posting = false)
    (word : UInt32) : RingRun r (s.post word) := by
  obtain ⟨t, hwrite, hpublish⟩ := post_steps hidle word
  exact (hrun.tail ⟨_, hwrite⟩).tail ⟨_, hpublish⟩

/-- The loop of `mix_samples` is a run of takes that ends when its target is reached. -/
theorem drain_takes {s : RingState} {d : Drain} (hmixing : s.mixing = some d) :
    let result := s.synth.drain d.target
    Relation.ReflTransGen (fun s t => RingStep s .take t) s
        { s with synth := result.2, taken := s.taken ++ result.1 } ∧
      ¬ result.2.readCount < d.target := by
  intro result
  by_cases hmore : s.synth.readCount < d.target
  · let t : RingState := { s with synth := s.synth.advance, taken := s.taken ++ [s.synth.current] }
    have hresult : result =
        (s.synth.current :: (t.synth.drain d.target).1, (t.synth.drain d.target).2) := by
      rw [show result = s.synth.drain d.target from rfl, Synth.drain, if_pos hmore]
    obtain ⟨hrun, hdone⟩ := drain_takes (s := t) hmixing
    rw [hresult]
    refine ⟨?_, hdone⟩
    rw [List.append_assoc, List.singleton_append] at hrun
    exact hrun.head (.take s d hmixing hmore)
  · have hresult : result = ([], s.synth) := by
      rw [show result = s.synth.drain d.target from rfl, Synth.drain, if_neg hmore]
    rw [hresult, List.append_nil]
    exact ⟨.refl, hmore⟩
termination_by d.target.toNat - s.synth.readCount.toNat
decreasing_by exact Synth.advance_closer hmore

/-- A call of `mix_samples` is the run of a load, its takes and a finish. -/
theorem mixSamples_run {s : RingState} (hidle : s.mixing = none) :
    let result := s.synth.mixSamples
    RingRun s { s with synth := result.2, taken := s.taken ++ result.1 } := by
  intro result
  let d : Drain := ⟨s.synth.atomicWriteCount, s.published⟩
  let loaded : RingState := { s with mixing := some d }
  obtain ⟨htakes, hdone⟩ := drain_takes (s := loaded) (d := d) rfl
  have hrun : RingRun loaded { loaded with synth := result.2, taken := s.taken ++ result.1 } :=
    Relation.ReflTransGen.mono (fun _ _ hstep => ⟨_, hstep⟩) _ _ htakes
  have hfinish := RingStep.finish
    { loaded with synth := result.2, taken := s.taken ++ result.1 } d rfl hdone
  have hwhole := (hrun.tail ⟨_, hfinish⟩).head ⟨_, RingStep.load s hidle⟩
  rw [← hidle] at hwhole
  exact hwhole

end Sussybard
